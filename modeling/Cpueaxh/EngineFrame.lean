/-
# What an event does to an engine

A step looks its instruction up in the cache, or fetches and decodes it and puts it into
the cache; then it executes it.  The other events leave the cache alone.  So every entry
of the cache was fresh at some step: decoded from the bytes that were found then, under
the version and the mode key of that step.
-/
import Cpueaxh.Fetch
import Cpueaxh.EngineApi

namespace Cpueaxh

open HostMemory

/-! ## The mode key -/

section ModeKey

variable (ctx : CpuContext)

/-- Caching the key changes the cached key at most. -/
theorem modeKey_context : ∃ bits valid, (cpuInstCacheModeKey ctx).2 =
    { ctx with cachedModeKeyBits := bits, cachedModeKeyValid := valid } := by
  unfold cpuInstCacheModeKey
  split_ifs
  · exact ⟨ctx.cachedModeKeyBits, ctx.cachedModeKeyValid, rfl⟩
  · exact ⟨_, _, rfl⟩

@[simp] theorem modeKey_rip : (cpuInstCacheModeKey ctx).2.rip = ctx.rip := by
  obtain ⟨bits, valid, h⟩ := modeKey_context ctx
  rw [h]

@[simp] theorem modeKey_hasException :
    (cpuInstCacheModeKey ctx).2.hasException = ctx.hasException := by
  obtain ⟨bits, valid, h⟩ := modeKey_context ctx
  rw [h]
  rfl

@[simp] theorem modeKey_is64BitCode :
    (cpuInstCacheModeKey ctx).2.is64BitCode = ctx.is64BitCode := by
  obtain ⟨bits, valid, h⟩ := modeKey_context ctx
  rw [h]
  rfl

@[simp] theorem modeKey_isUser : (cpuInstCacheModeKey ctx).2.isUser = ctx.isUser := by
  obtain ⟨bits, valid, h⟩ := modeKey_context ctx
  rw [h]
  rfl

@[simp] theorem modeKey_computed :
    cpuInstCacheComputeModeKeyBits (cpuInstCacheModeKey ctx).2 =
      cpuInstCacheComputeModeKeyBits ctx := by
  obtain ⟨bits, valid, h⟩ := modeKey_context ctx
  rw [h]
  rfl

/-- The key is cached at its first use. -/
@[simp] theorem modeKey_idem :
    cpuInstCacheModeKey (cpuInstCacheModeKey ctx).2 = cpuInstCacheModeKey ctx := by
  by_cases h : ctx.cachedModeKeyValid = true
  · have heq : (cpuInstCacheModeKey ctx).2 = ctx := by
      unfold cpuInstCacheModeKey
      rw [if_pos h]
    rw [heq]
  · unfold cpuInstCacheModeKey
    rw [if_neg h]
    rfl

/-- A fresh key is the key of the mode. -/
theorem KeyFresh.modeKey_eq {ctx : CpuContext} (h : KeyFresh ctx) :
    (cpuInstCacheModeKey ctx).1 = cpuInstCacheComputeModeKeyBits ctx := by
  unfold cpuInstCacheModeKey
  split_ifs with hvalid
  · exact h hvalid
  · rfl

/-- Using the key keeps it fresh. -/
theorem KeyFresh.modeKey {ctx : CpuContext} (h : KeyFresh ctx) :
    KeyFresh (cpuInstCacheModeKey ctx).2 := by
  by_cases hvalid : ctx.cachedModeKeyValid = true
  · unfold cpuInstCacheModeKey
    rw [if_pos hvalid]
    exact h
  · unfold cpuInstCacheModeKey
    rw [if_neg hvalid]
    intro _
    rfl

end ModeKey

/-- The end of an access changes the control registers and the exception at most. -/
theorem accessOutcome_context (ctx : CpuContext) (view : PtrResult) (hooks : Hooks) (asked : ℕ)
    (address : U64) (access : Access) :
    ∃ regs exception, (accessOutcome ctx view hooks asked address access).2.1 =
      { ctx with controlRegs := regs, exception := exception } := by
  unfold accessOutcome cpuRaiseNoncanonicalAddress cpuRaisePageFault
  by_cases hexc : ctx.hasException = true
  · rw [if_pos hexc]
    exact ⟨ctx.controlRegs, ctx.exception, rfl⟩
  rw [if_neg hexc]
  by_cases hcanon : (ctx.is64BitCode && !cpuIsCanonicalAddress address) = true
  · rw [if_pos hcanon]
    obtain ⟨exception, h⟩ := raiseException_eq ctx cpuExceptionGp 0
    exact ⟨ctx.controlRegs, exception, h⟩
  rw [if_neg hcanon]
  cases judgeAccess ctx.isUser view with
  | ok ptr => exact ⟨ctx.controlRegs, ctx.exception, rfl⟩
  | error violation =>
    obtain ⟨exception, h⟩ := raiseException_eq
      { ctx with controlRegs := Function.update ctx.controlRegs regCr2 address } cpuExceptionPf
      (cpuMakePageFaultError ctx access (faultOutcome hooks access violation 4 asked).1)
    exact ⟨_, exception, h⟩

/-- The end of a fetch changes the control registers and the exception at most. -/
theorem fetchEnd_context (ctx : CpuContext) (mgr : MemoryManager) (hooks : Hooks) (asked : ℕ)
    (address : U64) (left i : ℕ) :
    ∃ regs exception, (fetchEnd ctx mgr hooks asked address left i).1 =
      { ctx with controlRegs := regs, exception := exception } := by
  unfold fetchEnd
  simp only
  split_ifs
  · exact ⟨ctx.controlRegs, ctx.exception, rfl⟩
  · exact accessOutcome_context ..

/-! ## Finding the instruction -/

namespace Cpu

/-- The bytes that a fetch at `rip` finds. -/
def codeView (cpu : Cpu) : List U8 :=
  fetchView cpu.context.is64BitCode cpu.context.isUser cpu.memory cpu.context.rip

/-- The CPU with its mode key cached. -/
def keyed (cpu : Cpu) : Cpu := cpu.setContext (cpuInstCacheModeKey cpu.context).2

theorem codeView_keyed (cpu : Cpu) : cpu.keyed.codeView = cpu.codeView := by
  unfold codeView keyed setContext
  rw [modeKey_is64BitCode, modeKey_isUser, modeKey_rip]

/-- The CPU behind the fetch of the bytes at `rip`. -/
def Fetched (cpu cpu' : Cpu) : Prop :=
  ∃ cache, MemoryOk (cpu.memory.setCache cache) ∧
    cpu' = cpu.fetched cache
      (fetchEnd cpu.context cpu.memory cpu.hooks cpu.asked cpu.context.rip maxInstFetch 0)

/-- The CPU behind the fetch of the bytes at an address. -/
def FetchedAt (cpu : Cpu) (address : U64) (cpu' : Cpu) : Prop :=
  ∃ cache, MemoryOk (cpu.memory.setCache cache) ∧
    cpu' = cpu.fetched cache
      (fetchEnd cpu.context cpu.memory cpu.hooks cpu.asked address maxInstFetch 0)

theorem fetch_at {cpu : Cpu} (hm : MemoryOk cpu.memory)
    (hexc : cpu.context.hasException = false) (address : U64) :
    ∃ cpu', cpu.FetchedAt address cpu' ∧ cpu.fetchInstructionBytes address =
      (fetchView cpu.context.is64BitCode cpu.context.isUser cpu.memory address, cpu') := by
  obtain ⟨cache, hmc, heq⟩ := fetchInstructionBytes_spec hm hexc address
  exact ⟨_, ⟨cache, hmc, rfl⟩, heq⟩

theorem fetch_codeView {cpu : Cpu} (hm : MemoryOk cpu.memory)
    (hexc : cpu.context.hasException = false) :
    ∃ cpu', cpu.Fetched cpu' ∧ cpu.fetchInstructionBytes cpu.context.rip = (cpu.codeView, cpu') :=
  fetch_at hm hexc cpu.context.rip

/-- A fetch changes the control registers, the exception and the page cache at most. -/
theorem FetchedAt.eq {cpu cpu' : Cpu} {address : U64} (h : cpu.FetchedAt address cpu') :
    ∃ regs exception, cpu'.context =
        { cpu.context with controlRegs := regs, exception := exception } ∧
      cpu'.memory = cpu.memory.setCache cpu'.memory.pageCache ∧ MemoryOk cpu'.memory ∧
      cpu'.hooks = cpu.hooks := by
  obtain ⟨cache, hmc, rfl⟩ := h
  obtain ⟨regs, exception, hctx⟩ := fetchEnd_context cpu.context cpu.memory cpu.hooks cpu.asked
    address maxInstFetch 0
  exact ⟨regs, exception, hctx, rfl, hmc, rfl⟩

end Cpu

namespace Engine

/-- The engine with its mode key cached. -/
def keyed (engine : Engine) : Engine := { engine with cpu := engine.cpu.keyed }

/-- The mode key that the engine uses. -/
def currentKey (engine : Engine) : U8 := (cpuInstCacheModeKey engine.cpu.context).1

theorem modeKey_eq (engine : Engine) : engine.modeKey = (engine.currentKey, engine.keyed) := rfl

/-- The entry that a step of the engine would use. -/
def hit (engine : Engine) : Option InstCacheEntry := engine.keyed.lookup engine.currentKey

/-- A hit is an entry for the instruction pointer, the version and the key. -/
theorem hit_eq_some {engine : Engine} {slot : InstCacheEntry} (h : engine.hit = some slot) :
    ∃ slots, engine.instCache = some slots ∧
      slot = slots (cpuInstCacheIndex engine.cpu.context.rip) ∧
      slot.tag = engine.cpu.context.rip ∧ slot.version = engine.cpu.memory.codeVersion ∧
      slot.mode = engine.currentKey := by
  unfold hit lookup at h
  cases hs : engine.keyed.instCache with
  | none =>
    rw [hs] at h
    cases h
  | some slots =>
    rw [hs] at h
    simp only [Option.ite_none_right_eq_some, Option.some.injEq] at h
    obtain ⟨hhit, rfl⟩ := h
    have hrip : engine.keyed.cpu.context.rip = engine.cpu.context.rip := modeKey_rip _
    unfold InstCacheEntry.isHit at hhit
    simp only [Bool.and_eq_true, beq_iff_eq] at hhit
    rw [hrip] at hhit ⊢
    exact ⟨slots, hs, rfl, hhit.1.1, hhit.1.2, hhit.2⟩

variable (isa : InstructionSet)

/-- What `resolve` does: it uses the cached instruction, it finds no bytes, or it decodes
the bytes that it finds. -/
inductive Resolved (engine : Engine) (prefetched : List U8) :
    Option DecodedInst × Engine → Prop where
  | cached {slot : InstCacheEntry} (h : engine.hit = some slot) :
    Resolved engine prefetched (some slot.decoded, engine.keyed)
  | empty {cpu : Cpu} (h : engine.hit = none) (hpre : prefetched = [])
    (hfetch : engine.cpu.keyed.Fetched cpu) (hview : engine.cpu.codeView = []) :
    Resolved engine prefetched (none, { engine with cpu := cpu })
  | decoded {cpu : Cpu} (h : engine.hit = none)
    (hfetch : prefetched = [] ∧ engine.cpu.keyed.Fetched cpu ∨
      prefetched ≠ [] ∧ cpu = engine.cpu.keyed) (hview : engine.cpu.codeView ≠ []) :
    Resolved engine prefetched
      (some (isa.decode cpu.context engine.cpu.codeView),
        ({ engine with cpu := cpu } : Engine).commit engine.cpu.context.rip engine.currentKey
          (isa.decode cpu.context engine.cpu.codeView))

/-- **Finding the instruction.**  The bytes are fetched, or were fetched before. -/
theorem resolve_resolved {engine : Engine} (hm : MemoryOk engine.cpu.memory)
    (hexc : engine.cpu.context.hasException = false) {prefetched : List U8}
    (hpre : prefetched = [] ∨ prefetched = engine.cpu.codeView) :
    Resolved isa engine prefetched (engine.resolve isa prefetched) := by
  unfold resolve
  rw [modeKey_eq]
  simp only
  cases hhit : engine.keyed.lookup engine.currentKey with
  | some slot => exact .cached hhit
  | none =>
    have hrip : engine.keyed.cpu.context.rip = engine.cpu.context.rip := modeKey_rip _
    simp only
    by_cases hne : prefetched = []
    · subst hne
      have hexc' : engine.cpu.keyed.context.hasException = false := by
        rw [← hexc]
        exact modeKey_hasException _
      obtain ⟨cpu, hfetch, heq⟩ := @Cpu.fetch_codeView engine.cpu.keyed hm hexc'
      rw [Cpu.codeView_keyed] at heq
      have hlen : ¬ (([] : List U8).length ≠ 0) := by simp
      rw [if_neg hlen]
      have hfetched : engine.keyed.cpu.fetchInstructionBytes engine.keyed.cpu.context.rip =
        (engine.cpu.codeView, cpu) := heq
      rw [hfetched]
      simp only
      by_cases hview : engine.cpu.codeView = []
      · rw [if_pos (by rw [hview]; rfl)]
        exact .empty hhit rfl hfetch hview
      · rw [if_neg (by simpa using hview), hrip]
        exact .decoded hhit (Or.inl ⟨rfl, hfetch⟩) hview
    · obtain rfl := hpre.resolve_left hne
      have htake : engine.cpu.codeView.take maxInstFetch = engine.cpu.codeView :=
        List.take_of_length_le (codeBytes_length_le maxInstFetch 0)
      have hlen : engine.cpu.codeView.length ≠ 0 := by simpa using hne
      rw [if_pos hlen, htake]
      simp only
      rw [if_neg hlen, hrip]
      exact .decoded hhit (Or.inr ⟨hne, rfl⟩) hne

/-! ## The entries of the cache -/

/-- An entry that a step of the engine puts into the cache. -/
structure Fresh (engine : Engine) (entry : InstCacheEntry) : Prop where
  tag_eq : entry.tag = engine.cpu.context.rip
  version_eq : entry.version = engine.cpu.memory.codeVersion
  mode_eq : entry.mode = engine.currentKey
  view_ne : engine.cpu.codeView ≠ []
  decoded : ∃ ctx, cpuInstCacheComputeModeKeyBits ctx =
      cpuInstCacheComputeModeKeyBits engine.cpu.context ∧
    entry.decoded = isa.decode ctx engine.cpu.codeView

/-- The entries of the second engine are those of the first, or fresh there. -/
def EntriesFrom (engine engine' : Engine) : Prop :=
  ∀ slots', engine'.instCache = some slots' →
    ∃ slots, engine.instCache = some slots ∧ ∀ i, slots' i = slots i ∨ Fresh isa engine (slots' i)

variable {isa}

/-- The same cache has the same entries. -/
theorem EntriesFrom.of_eq {engine engine' : Engine} (h : engine'.instCache = engine.instCache) :
    EntriesFrom isa engine engine' :=
  fun slots' hs => ⟨slots', h ▸ hs, fun _ => Or.inl rfl⟩

/-- Entries put in by a commit. -/
theorem EntriesFrom.commit {engine engine₁ : Engine} {dec : DecodedInst}
    (hcache : engine₁.instCache = engine.instCache)
    (hversion : engine₁.cpu.memory.codeVersion = engine.cpu.memory.codeVersion)
    (hview : engine.cpu.codeView ≠ [])
    (hdec : ∃ ctx, cpuInstCacheComputeModeKeyBits ctx =
        cpuInstCacheComputeModeKeyBits engine.cpu.context ∧
      dec = isa.decode ctx engine.cpu.codeView) :
    EntriesFrom isa engine (engine₁.commit engine.cpu.context.rip engine.currentKey dec) := by
  intro slots' hs
  unfold Engine.commit at hs
  cases hc : engine₁.instCache with
  | none =>
    simp only [hc] at hs
    cases hs
  | some slots =>
    refine ⟨slots, hcache ▸ hc, fun i => ?_⟩
    simp only [hc] at hs
    split_ifs at hs
    · obtain rfl := Option.some.inj hs
      by_cases hi : i = cpuInstCacheIndex engine.cpu.context.rip
      · subst hi
        rw [Function.update_self]
        exact Or.inr ⟨rfl, hversion, rfl, hview, hdec⟩
      · exact Or.inl (Function.update_of_ne hi ..)
    · rw [hc] at hs
      exact Or.inl (by rw [Option.some.inj hs])

/-! ## Guest steps -/

@[simp] theorem commit_cpu (engine : Engine) (rip : U64) (mode : U8) (dec : DecodedInst) :
    (engine.commit rip mode dec).cpu = engine.cpu := by
  unfold Engine.commit
  cases engine.instCache with
  | none => rfl
  | some slots =>
    simp only
    split_ifs <;> rfl

/-- Caching the mode key keeps the mode. -/
theorem frame_keyed (cpu : Cpu) : GuestFrame cpu cpu.keyed := by
  obtain ⟨bits, valid, h⟩ := modeKey_context cpu.context
  refine ⟨⟨.refl _, rfl, ?_, ?_⟩, KeyFresh.modeKey⟩
  · show (cpuInstCacheModeKey cpu.context).2.cpl = _
    rw [h]
  · show (cpuInstCacheModeKey cpu.context).2.longModeActive = _
    rw [h]

/-- A fetch keeps the mode. -/
theorem frame_fetched {cpu cpu' : Cpu} {address : U64} (h : cpu.FetchedAt address cpu') :
    GuestFrame cpu cpu' := by
  obtain ⟨regs, exception, hctx, hmem, hmc, hhooks⟩ := h.eq
  refine ⟨⟨⟨?_, fun _ => hmc⟩, hhooks, ?_, ?_⟩, fun hkey => ?_⟩
  · rw [hmem]
    rfl
  · rw [hctx]
  · rw [hctx]
  · rw [hctx]
    exact hkey.congr rfl rfl rfl rfl

/-- The engine `engine'` is about to execute what `engine` is about to execute. -/
structure SamePlace (engine engine' : Engine) : Prop where
  cache_eq : engine'.instCache = engine.instCache
  rip_eq : engine'.cpu.context.rip = engine.cpu.context.rip
  version_eq : engine'.cpu.memory.codeVersion = engine.cpu.memory.codeVersion
  key_eq : engine'.currentKey = engine.currentKey
  computed_eq : cpuInstCacheComputeModeKeyBits engine'.cpu.context =
    cpuInstCacheComputeModeKeyBits engine.cpu.context
  view_eq : engine'.cpu.codeView = engine.cpu.codeView

theorem SamePlace.trans {engine engine' engine'' : Engine} (h : SamePlace engine engine')
    (h' : SamePlace engine' engine'') : SamePlace engine engine'' :=
  ⟨h'.cache_eq.trans h.cache_eq, h'.rip_eq.trans h.rip_eq, h'.version_eq.trans h.version_eq,
    h'.key_eq.trans h.key_eq, h'.computed_eq.trans h.computed_eq, h'.view_eq.trans h.view_eq⟩

/-- Caching the mode key stays in place. -/
theorem samePlace_keyed (engine : Engine) : SamePlace engine engine.keyed where
  cache_eq := rfl
  rip_eq := modeKey_rip _
  version_eq := rfl
  key_eq := congrArg Prod.fst (modeKey_idem engine.cpu.context)
  computed_eq := modeKey_computed _
  view_eq := engine.cpu.codeView_keyed

/-- A fetch stays in place. -/
theorem samePlace_fetched {engine : Engine} {cpu : Cpu} {address : U64}
    (h : engine.cpu.FetchedAt address cpu) : SamePlace engine { engine with cpu := cpu } := by
  obtain ⟨regs, exception, hctx, hmem, -, -⟩ := h.eq
  constructor
  · rfl
  · show cpu.context.rip = _
    rw [hctx]
  · show cpu.memory.codeVersion = _
    rw [hmem]
    rfl
  · show (cpuInstCacheModeKey cpu.context).1 = (cpuInstCacheModeKey engine.cpu.context).1
    rw [hctx]
    unfold cpuInstCacheModeKey
    simp only
    split_ifs <;> rfl
  · show cpuInstCacheComputeModeKeyBits cpu.context = _
    rw [hctx]
    rfl
  · show cpu.codeView = engine.cpu.codeView
    unfold Cpu.codeView
    rw [hctx, hmem]
    exact codeBytes_setCache ..

/-- The same place has the same entry. -/
theorem SamePlace.hit_eq {engine engine' : Engine} (h : SamePlace engine engine') :
    engine'.hit = engine.hit := by
  have hkeyed := (samePlace_keyed engine').rip_eq.trans
    (h.rip_eq.trans (samePlace_keyed engine).rip_eq.symm)
  have hcache : engine'.keyed.instCache = engine.keyed.instCache := h.cache_eq
  have hversion : engine'.keyed.cpu.memory.codeVersion = engine.keyed.cpu.memory.codeVersion :=
    h.version_eq
  unfold hit lookup
  rw [hcache, hkeyed, hversion, h.key_eq]

theorem SamePlace.is64BitCode_eq {engine engine' : Engine} (h : SamePlace engine engine') :
    engine'.cpu.context.is64BitCode = engine.cpu.context.is64BitCode :=
  is64BitCode_eq_of_modeKey h.computed_eq

/-- The engine `engine'` is in the same place as `engine`, with the same memory up to the
page cache. -/
structure Stays (engine engine' : Engine) : Prop extends SamePlace engine engine' where
  memory_eq : engine'.cpu.memory = engine.cpu.memory.setCache engine'.cpu.memory.pageCache
  ok : MemoryOk engine.cpu.memory → MemoryOk engine'.cpu.memory
  key : KeyFresh engine.cpu.context → KeyFresh engine'.cpu.context
  user_eq : engine'.cpu.context.isUser = engine.cpu.context.isUser

theorem Stays.memory {engine engine' : Engine} (h : Stays engine engine') :
    MemoryFrame engine.cpu.memory engine'.cpu.memory where
  same := by
    rw [h.memory_eq]
    rfl
  ok := h.ok

theorem Stays.of_frame {engine engine' : Engine} (hplace : SamePlace engine engine')
    (hframe : GuestFrame engine.cpu engine'.cpu)
    (hmemory : engine'.cpu.memory = engine.cpu.memory.setCache engine'.cpu.memory.pageCache) :
    Stays engine engine' where
  toSamePlace := hplace
  memory_eq := hmemory
  ok := hframe.memory.ok
  key := hframe.key
  user_eq := by rw [CpuContext.isUser, CpuContext.isUser, hframe.cpl_eq]

theorem Stays.refl (engine : Engine) : Stays engine engine :=
  ⟨⟨rfl, rfl, rfl, rfl, rfl, rfl⟩, rfl, id, id, rfl⟩

theorem Stays.trans {engine engine' engine'' : Engine} (h : Stays engine engine')
    (h' : Stays engine' engine'') : Stays engine engine'' where
  toSamePlace := h.toSamePlace.trans h'.toSamePlace
  memory_eq := by
    rw [h'.memory_eq, h.memory_eq]
    rfl
  ok := h'.ok ∘ h.ok
  key := h'.key ∘ h.key
  user_eq := h'.user_eq.trans h.user_eq

/-- A place where the engine stays has the same code at every address. -/
theorem Stays.fetchView_eq {engine engine' : Engine} (h : Stays engine engine') (is64 : Bool)
    (address : U64) : fetchView is64 engine'.cpu.context.isUser engine'.cpu.memory address =
      fetchView is64 engine.cpu.context.isUser engine.cpu.memory address := by
  rw [h.user_eq, h.memory_eq]
  exact codeBytes_setCache ..

theorem stays_keyed (engine : Engine) : Stays engine engine.keyed :=
  .of_frame (samePlace_keyed engine) (frame_keyed engine.cpu) rfl

theorem stays_fetched {engine : Engine} {cpu : Cpu} {address : U64}
    (h : engine.cpu.FetchedAt address cpu) : Stays engine { engine with cpu := cpu } := by
  obtain ⟨regs, exception, -, hmemory, -, -⟩ := h.eq
  exact .of_frame (samePlace_fetched h) (frame_fetched h) hmemory

/-- What is fresh in the same place is fresh. -/
theorem EntriesFrom.of_samePlace {engine engine₁ engine₂ : Engine} (h : SamePlace engine engine₁)
    (h' : EntriesFrom isa engine₁ engine₂) : EntriesFrom isa engine engine₂ := by
  intro slots₂ hs₂
  obtain ⟨slots₁, hs₁, hslots⟩ := h' slots₂ hs₂
  refine ⟨slots₁, h.cache_eq ▸ hs₁, fun i => (hslots i).imp_right fun hfresh => ?_⟩
  obtain ⟨ctx, hctx, hdec⟩ := hfresh.decoded
  exact
    { tag_eq := hfresh.tag_eq.trans h.rip_eq
      version_eq := hfresh.version_eq.trans h.version_eq
      mode_eq := hfresh.mode_eq.trans h.key_eq
      view_ne := h.view_eq ▸ hfresh.view_ne
      decoded := ⟨ctx, hctx.trans h.computed_eq, h.view_eq ▸ hdec⟩ }

/-- The end of a step: the instruction that was found is executed. -/
theorem finish_resolved {engine : Engine} {prefetched : List U8}
    {found : Option DecodedInst × Engine} (h : Resolved isa engine prefetched found) :
    GuestFrame engine.cpu found.2.cpu ∧ EntriesFrom isa engine found.2 := by
  cases h with
  | cached hhit => exact ⟨frame_keyed engine.cpu, .of_eq rfl⟩
  | empty hhit hpre hfetch hview =>
    exact ⟨(frame_keyed engine.cpu).trans (frame_fetched hfetch), .of_eq rfl⟩
  | decoded hhit hfetch hview =>
    rcases hfetch with ⟨-, hfetch⟩ | ⟨-, rfl⟩
    · have hplace := (samePlace_keyed engine).trans (samePlace_fetched hfetch)
      rw [commit_cpu]
      refine ⟨(frame_keyed engine.cpu).trans (frame_fetched hfetch), ?_⟩
      exact .commit rfl hplace.version_eq hview ⟨_, hplace.computed_eq, rfl⟩
    · rw [commit_cpu]
      refine ⟨frame_keyed engine.cpu, ?_⟩
      exact .commit rfl rfl hview ⟨_, (samePlace_keyed engine).computed_eq, rfl⟩

/-- Finding the instruction leaves `rip` alone. -/
theorem Resolved.rip_eq {engine : Engine} {prefetched : List U8}
    {found : Option DecodedInst × Engine} (h : Resolved isa engine prefetched found) :
    found.2.cpu.context.rip = engine.cpu.context.rip := by
  have hkeyed := (samePlace_keyed engine).rip_eq
  cases h with
  | cached hhit => exact hkeyed
  | empty hhit hpre hfetch hview =>
    exact ((samePlace_keyed engine).trans (samePlace_fetched hfetch)).rip_eq
  | decoded hhit hfetch hview =>
    rw [commit_cpu]
    rcases hfetch with ⟨-, hfetch⟩ | ⟨-, rfl⟩
    · exact ((samePlace_keyed engine).trans (samePlace_fetched hfetch)).rip_eq
    · exact hkeyed

/-- A hit is used, whatever has been fetched. -/
theorem resolve_hit {engine : Engine} {slot : InstCacheEntry} (hhit : engine.hit = some slot)
    (prefetched : List U8) : engine.resolve isa prefetched = (some slot.decoded, engine.keyed) := by
  have hlookup : engine.keyed.lookup engine.currentKey = some slot := hhit
  unfold resolve
  rw [modeKey_eq]
  simp only [hlookup]

/-- A step leaves alone what guest code leaves alone, and puts fresh entries into the cache,
when it finds its instruction. -/
theorem stepWithPrefetch_frame_of {engine : Engine} {prefetched : List U8}
    (hfound : engine.cpu.context.hasException = false →
      Resolved isa engine prefetched (engine.resolve isa prefetched)) :
    GuestFrame engine.cpu (engine.stepWithPrefetch isa prefetched).2.cpu ∧
      EntriesFrom isa engine (engine.stepWithPrefetch isa prefetched).2 := by
  unfold stepWithPrefetch
  cases hexc : engine.cpu.context.hasException with
  | true => exact ⟨.refl _, .of_eq rfl⟩
  | false =>
    have hfound := finish_resolved (hfound hexc)
    simp only [Bool.false_eq_true, if_false]
    rcases hr : engine.resolve isa prefetched with ⟨_ | dec, engine₁⟩
    · rw [hr] at hfound
      exact ⟨hfound.1.trans (.setSegmentOverride engine₁.cpu (-1)), hfound.2⟩
    · rw [hr] at hfound
      simp only
      split_ifs
      · exact ⟨hfound.1.trans (.dispatchDecoded engine₁.cpu dec _), hfound.2⟩
      · exact ⟨hfound.1.trans (.setSegmentOverride engine₁.cpu (-1)), hfound.2⟩

/-- **A step** leaves alone what guest code leaves alone, and puts fresh entries into the
cache. -/
theorem stepWithPrefetch_frame {engine : Engine} (hm : MemoryOk engine.cpu.memory)
    {prefetched : List U8} (hpre : prefetched = [] ∨ prefetched = engine.cpu.codeView) :
    GuestFrame engine.cpu (engine.stepWithPrefetch isa prefetched).2.cpu ∧
      EntriesFrom isa engine (engine.stepWithPrefetch isa prefetched).2 :=
  stepWithPrefetch_frame_of fun hexc => resolve_resolved isa hm hexc hpre

/-- A step over a cached instruction. -/
theorem stepDecoded_frame (engine : Engine) (slot : InstCacheEntry) :
    GuestFrame engine.cpu (engine.stepDecoded slot).2.cpu ∧
      (engine.stepDecoded slot).2.instCache = engine.instCache := by
  unfold stepDecoded
  split_ifs
  · exact ⟨.refl _, rfl⟩
  · exact ⟨.dispatchDecoded engine.cpu slot.decoded _, rfl⟩

@[simp] theorem stepOutcome_snd (r : StepResult × Engine) : (stepOutcome r).2 = r.2 := by
  obtain ⟨_ | _ | _ | _ | _, engine⟩ := r <;> rfl

/-- The slot that the loop uses itself is a hit, and the loop caches the mode key at
most. -/
theorem fastSlot_cases (engine : Engine) :
    (engine.fastSlot.2 = engine ∨ engine.fastSlot.2 = engine.keyed) ∧
      ∀ slot, engine.fastSlot.1 = some slot →
        engine.fastSlot.2 = engine.keyed ∧ engine.hit = some slot ∧
          slot.decoded.flags.knownNotEscape = true := by
  unfold fastSlot
  cases engine.instCache with
  | none => exact ⟨Or.inl rfl, fun slot h => by cases h⟩
  | some slots =>
    refine ⟨Or.inr rfl, fun slot h => ⟨rfl, ?_⟩⟩
    exact Option.filter_eq_some_iff.mp h

/-- What a guest step does to an engine, when an escape may load a new context. -/
structure Stepped (isa : InstructionSet) (engine engine' : Engine) : Prop where
  memory : MemoryFrame engine.cpu.memory engine'.cpu.memory
  entries : EntriesFrom isa engine engine'
  key : KeyFresh engine.cpu.context → KeyFresh engine'.cpu.context
  user : engine'.cpu.context.isUser = engine.cpu.context.isUser ∨
    engine'.instCache = engine.instCache

/-- A step that keeps the mode. -/
theorem Stepped.of_frame {engine engine' : Engine} (h : GuestFrame engine.cpu engine'.cpu)
    (hentries : EntriesFrom isa engine engine') : Stepped isa engine engine' where
  memory := h.memory
  entries := hentries
  key := h.key
  user := Or.inl (by rw [CpuContext.isUser, CpuContext.isUser, h.cpl_eq])

/-- A step from the same place. -/
theorem Stepped.of_stays {engine engine₁ engine₂ : Engine} (hstays : Stays engine engine₁)
    (h : Stepped isa engine₁ engine₂) : Stepped isa engine engine₂ where
  memory := hstays.memory.trans h.memory
  entries := h.entries.of_samePlace hstays.toSamePlace
  key := h.key ∘ hstays.key
  user := h.user.imp (fun h => h.trans hstays.user_eq) fun h => h.trans hstays.cache_eq

/-- A step, and a place behind it. -/
theorem Stepped.then_stays {engine engine₁ engine₂ : Engine} (h : Stepped isa engine engine₁)
    (hstays : Stays engine₁ engine₂) : Stepped isa engine engine₂ where
  memory := h.memory.trans hstays.memory
  entries slots hs := h.entries slots (hstays.cache_eq ▸ hs)
  key := hstays.key ∘ h.key
  user := h.user.imp (fun h => hstays.user_eq.trans h) fun h => hstays.cache_eq.trans h

/-- An escape keeps the mode key fresh: a new context marks it as stale. -/
theorem tryDispatchEscape_keyFresh {escapes : List EscapeEntry} {ctx out : CpuContext}
    {address : U64} {bytes : List U8} {error : CpueaxhErr}
    (h : tryDispatchEscape escapes ctx address bytes = some (error, out)) (hkey : KeyFresh ctx) :
    KeyFresh out := by
  unfold tryDispatchEscape at h
  split at h
  · cases h
  · simp only at h
    split at h
    · split at h
      · obtain rfl := (Prod.mk.inj (Option.some.inj h)).2
        exact hkey
      · obtain rfl := (Prod.mk.inj (Option.some.inj h)).2
        exact keyFresh_of_stale rfl
    · split_ifs at h
      obtain rfl := (Prod.mk.inj (Option.some.inj h)).2
      obtain ⟨exception, heq⟩ := raiseException_eq ctx (EscapeInsnId.fault _) 0
      rw [heq]
      exact hkey.congr rfl rfl rfl rfl

/-- The part of a turn behind the fetch. -/
theorem stepFetched_stepped {engine : Engine} (hm : MemoryOk engine.cpu.memory) {bytes : List U8}
    (hbytes : bytes = [] ∨ bytes = engine.cpu.codeView) (address : U64) :
    Stepped isa engine (engine.stepFetched isa bytes address).2 := by
  unfold stepFetched
  simp only
  split
  · rename_i error ctx hescape
    split_ifs at hescape
    exact
      { memory := .refl _
        entries := .of_eq rfl
        key := tryDispatchEscape_keyFresh hescape
        user := Or.inr rfl }
  · rw [stepOutcome_snd]
    exact .of_frame (stepWithPrefetch_frame hm hbytes).1 (stepWithPrefetch_frame hm hbytes).2

/-- What a turn of the loop with hooks does: it executes the cached instruction itself; it
finds an exception and fetches nothing; or it fetches the bytes at `rip`.  Before a fetch
the mode key may have been cached. -/
inductive Turn (isa : InstructionSet) (engine : Engine) : Option CpueaxhErr × Engine → Prop where
  | cached {slot : InstCacheEntry} (hhit : engine.hit = some slot)
    (hknown : slot.decoded.flags.knownNotEscape = true) :
    Turn isa engine (stepOutcome (engine.keyed.stepDecoded slot))
  | faulted {engine₁ : Engine} (hplace : engine₁ = engine ∨ engine₁ = engine.keyed)
    (hexc : engine₁.cpu.context.hasException = true) :
    Turn isa engine (engine₁.stepFetched isa [] engine.cpu.context.rip)
  | fetched {engine₁ : Engine} {cpu : Cpu} (hplace : engine₁ = engine ∨ engine₁ = engine.keyed)
    (hexc : engine₁.cpu.context.hasException = false) (hfetch : engine₁.cpu.Fetched cpu) :
    Turn isa engine (({ engine₁ with cpu := cpu } : Engine).stepFetched isa engine.cpu.codeView
      engine.cpu.context.rip)

/-- The engine with its mode key perhaps cached stays in place. -/
theorem stays_of_place {engine engine₁ : Engine} (h : engine₁ = engine ∨ engine₁ = engine.keyed) :
    Stays engine engine₁ := by
  rcases h with rfl | rfl
  · exact .refl _
  · exact stays_keyed engine

theorem hookedStep_turn {engine : Engine} (hm : MemoryOk engine.cpu.memory) :
    Turn isa engine (engine.hookedStep isa) := by
  unfold hookedStep
  obtain ⟨hplace, hfast⟩ := fastSlot_cases engine
  rcases hs : engine.fastSlot with ⟨_ | slot, engine₁⟩
  · rw [hs] at hplace
    have hstays := stays_of_place hplace
    simp only
    cases hexc : engine₁.cpu.context.hasException with
    | true =>
      have hfetch : engine₁.cpu.fetchInstructionBytes engine.cpu.context.rip = ([], engine₁.cpu) := by
        unfold Cpu.fetchInstructionBytes
        rw [hexc]
        rfl
      rw [hfetch]
      exact .faulted hplace hexc
    | false =>
      obtain ⟨cpu, hfetch, heq⟩ := Cpu.fetch_codeView (hstays.memory.ok hm) hexc
      rw [hstays.rip_eq, hstays.view_eq] at heq
      rw [heq]
      exact .fetched hplace hexc hfetch
  · rw [hs] at hfast
    obtain ⟨rfl, hhit, hknown⟩ := hfast slot rfl
    exact .cached hhit hknown

/-- **A turn of the loop with hooks.** -/
theorem hookedStep_stepped {engine : Engine} (hm : MemoryOk engine.cpu.memory) :
    Stepped isa engine (engine.hookedStep isa).2 := by
  have hturn := @hookedStep_turn isa engine hm
  generalize engine.hookedStep isa = out at hturn ⊢
  cases hturn with
  | @cached slot hhit hknown =>
    have hstep := stepDecoded_frame engine.keyed slot
    rw [stepOutcome_snd]
    exact .of_frame ((frame_keyed engine.cpu).trans hstep.1) (.of_eq hstep.2)
  | faulted hplace hexc =>
    have hstays := stays_of_place hplace
    apply Stepped.of_stays hstays
    exact stepFetched_stepped (hstays.memory.ok hm) (Or.inl rfl) _
  | fetched hplace hexc hfetch =>
    have hstays := (stays_of_place hplace).trans (stays_fetched hfetch)
    apply Stepped.of_stays hstays
    apply stepFetched_stepped (hstays.memory.ok hm)
    exact Or.inr hstays.view_eq.symm

/-- **A step of `cpu_step`.** -/
theorem step_stepped {engine : Engine} (hm : MemoryOk engine.cpu.memory) :
    Stepped isa engine (engine.step isa).2 :=
  .of_frame (stepWithPrefetch_frame hm (Or.inl rfl)).1 (stepWithPrefetch_frame hm (Or.inl rfl)).2

end Engine

end Cpueaxh
