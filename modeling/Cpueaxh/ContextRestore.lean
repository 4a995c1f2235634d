/-
# Saving and restoring the context

`cpueaxh_context_read` in one state of an engine and `cpueaxh_context_write` in a later one,
when guest code has run in between and the memory and the hooks are as they were.  The
context that is read back is the saved one.  The engine then goes on as from the saved
state exactly when the x87 words, which the public context leaves out, are the same in
both states.

The further execution is any sequence of guest steps and of calls on the registers, the
context, the exception and the escapes; its steps execute blind instructions, and what they
find in the instruction cache is settled.
-/
import Cpueaxh.AlikeSteps
import Cpueaxh.CodeRuns
import Cpueaxh.FloatState

namespace Cpueaxh

open HostMemory Transition

variable {isa : InstructionSet}

/-! ## Calls -/

namespace Engine

/-- `cpueaxh_context_read`. -/
def contextRead (engine : Engine) : X86Context := cpueaxhContextOut engine.cpu.context

/-- `cpueaxh_context_write`. -/
def contextWrite (engine : Engine) (input : X86Context) : Engine :=
  engine.setContext (cpueaxhContextIn engine.cpu.context input)

/-- The context that was written is read back. -/
theorem contextRead_contextWrite (engine saved : Engine) :
    (engine.contextWrite saved.contextRead).contextRead = saved.contextRead := by
  show cpueaxhContextOut (cpueaxhContextIn engine.cpu.context saved.contextRead) = _
  rw [contextOut_contextIn]
  exact normalized_contextOut saved.cpu.context

/-- The visible fields are those of the saved state when the x87 state is. -/
theorem contextWrite_visible_iff (engine : Engine) {saved : Engine}
    (hlong : saved.cpu.context.longModeActive = true) :
    (engine.contextWrite saved.contextRead).cpu.context.visible = saved.cpu.context.visible ↔
      engine.cpu.context.x87 = saved.cpu.context.x87 := by
  constructor
  · intro h
    exact (congrArg CpuContext.x87 h :
      (engine.contextWrite saved.contextRead).cpu.context.visible.x87 =
        saved.cpu.context.visible.x87)
  · intro h
    have hover := contextOut_over saved.cpu.context
    show (cpueaxhContextIn engine.cpu.context saved.contextRead).visible = _
    rw [← hover]
    unfold cpueaxhContextIn X86Context.over CpuContext.visible contextRead
    simp only [h, hlong]

/-! ## Guest code -/

/-- What a guest step keeps: the map, the hooks and the escapes, and long mode. -/
structure GuestStep (engine engine' : Engine) : Prop where
  memory : MemoryFrame engine.cpu.memory engine'.cpu.memory
  escapes_eq : engine'.escapes = engine.escapes
  longMode : engine.cpu.context.longModeActive = true →
    engine'.cpu.context.longModeActive = true

theorem GuestStep.refl (engine : Engine) : GuestStep engine engine := ⟨.refl _, rfl, id⟩

theorem GuestStep.trans {engine engine' engine'' : Engine} (h : GuestStep engine engine')
    (h' : GuestStep engine' engine'') : GuestStep engine engine'' :=
  ⟨h.memory.trans h'.memory, h'.escapes_eq.trans h.escapes_eq, h'.longMode ∘ h.longMode⟩

theorem GuestStep.of_frame {engine engine' : Engine} (h : GuestFrame engine.cpu engine'.cpu)
    (hescapes : engine'.escapes = engine.escapes) : GuestStep engine engine' where
  memory := h.memory
  escapes_eq := hescapes
  longMode hlong := h.longMode_eq.trans hlong

theorem resolve_escapes (prefetched : List U8) (engine : Engine) :
    (engine.resolve isa prefetched).2.escapes = engine.escapes := by
  unfold Engine.resolve
  rw [modeKey_eq]
  simp only
  split
  · rfl
  · split_ifs
    · rfl
    · rw [commit_escapes]
      rfl
    · rfl
    · rw [commit_escapes]
      rfl

theorem stepWithPrefetch_escapes (prefetched : List U8) (engine : Engine) :
    (engine.stepWithPrefetch isa prefetched).2.escapes = engine.escapes := by
  have hescapes := @resolve_escapes isa prefetched engine
  unfold Engine.stepWithPrefetch
  rcases hr : engine.resolve isa prefetched with ⟨_ | dec, engine₁⟩
  · rw [hr] at hescapes
    split_ifs
    · rfl
    · exact hescapes
  · rw [hr] at hescapes
    simp only
    split_ifs
    · rfl
    · exact hescapes
    · exact hescapes

theorem stepFetched_guestStep {engine : Engine} (hm : MemoryOk engine.cpu.memory)
    {bytes : List U8} (hbytes : bytes = [] ∨ bytes = engine.cpu.codeView) (address : U64) :
    GuestStep engine (engine.stepFetched isa bytes address).2 := by
  unfold stepFetched
  simp only
  split
  · rename_i error ctx hescape
    split_ifs at hescape
    refine ⟨.refl _, rfl, fun hlong => ?_⟩
    unfold tryDispatchEscape at hescape
    split at hescape
    · cases hescape
    · simp only at hescape
      split at hescape
      · split at hescape
        · obtain rfl := (Prod.mk.inj (Option.some.inj hescape)).2
          exact hlong
        · -- the context that a callback leaves is one of long mode
          obtain rfl := (Prod.mk.inj (Option.some.inj hescape)).2
          rfl
      · split_ifs at hescape
        obtain rfl := (Prod.mk.inj (Option.some.inj hescape)).2
        obtain ⟨exception, heq⟩ := raiseException_eq engine.cpu.context (EscapeInsnId.fault _) 0
        show (engine.cpu.context.raiseException _ _).longModeActive = true
        rw [heq]
        exact hlong
  · rw [stepOutcome_snd]
    exact .of_frame (stepWithPrefetch_frame hm hbytes).1 (stepWithPrefetch_escapes bytes engine)

theorem hookedStep_guestStep {engine : Engine} (hm : MemoryOk engine.cpu.memory) :
    GuestStep engine (engine.hookedStep isa).2 := by
  have hfirst : ∀ engine₁, engine₁ = engine ∨ engine₁ = engine.keyed →
      GuestStep engine engine₁ := by
    rintro engine₁ (rfl | rfl)
    · exact .refl _
    · exact .of_frame (frame_keyed engine.cpu) rfl
  have hturn := @hookedStep_turn isa engine hm
  generalize engine.hookedStep isa = out at hturn ⊢
  cases hturn with
  | @cached slot hhit hknown =>
    rw [stepOutcome_snd]
    have hescapes : (engine.keyed.stepDecoded slot).2.escapes = engine.escapes := by
      unfold stepDecoded
      split_ifs
      · rfl
      · rfl
    exact .of_frame ((frame_keyed engine.cpu).trans (stepDecoded_frame engine.keyed slot).1) hescapes
  | faulted hplace hexc =>
    have hkept := hfirst _ hplace
    exact hkept.trans (stepFetched_guestStep (hkept.memory.ok hm) (Or.inl rfl) _)
  | @fetched engine₁ cpu hplace hexc hfetch =>
    have hkept : GuestStep engine { engine₁ with cpu := cpu } :=
      (hfirst _ hplace).trans (.of_frame (frame_fetched hfetch) rfl)
    have hstays := (stays_of_place hplace).trans (stays_fetched hfetch)
    exact hkept.trans (stepFetched_guestStep (hkept.memory.ok hm) (Or.inr hstays.view_eq.symm) _)

/-- **Guest code** keeps the map, the hooks and the escapes. -/
theorem run_guestStep {engine : Engine} (hm : MemoryOk engine.cpu.memory)
    {during : List EngineEvent} (hguest : ∀ event ∈ during, event = .step ∨ event = .hookedStep) :
    GuestStep engine (run (Engine.apply isa) engine during) := by
  induction during generalizing engine with
  | nil => exact .refl engine
  | cons event rest ih =>
    have hfirst : GuestStep engine (engine.apply isa event) := by
      rcases hguest event List.mem_cons_self with rfl | rfl
      · exact .of_frame (stepWithPrefetch_frame hm (Or.inl rfl)).1
          (stepWithPrefetch_escapes [] engine)
      · exact hookedStep_guestStep hm
    rw [run_cons]
    apply hfirst.trans
    apply ih (hfirst.memory.ok hm)
    exact fun other hother => hguest other (List.mem_cons_of_mem _ hother)

theorem regWrite_longMode (ctx : CpuContext) (write : RegWrite) :
    (Cpueaxh.regWrite ctx write).longModeActive = ctx.longModeActive := by
  cases write with
  | segment register field => cases register <;> rfl
  | _ => rfl

/-- Long mode stays active. -/
theorem longMode_apply {engine : Engine} (hm : MemoryOk engine.cpu.memory)
    (h : engine.cpu.context.longModeActive = true) (event : EngineEvent) :
    (engine.apply isa event).cpu.context.longModeActive = true := by
  cases event with
  | step => exact (run_guestStep hm (by simp) : GuestStep engine
      (run (Engine.apply isa) engine [.step])).longMode h
  | hookedStep => exact (hookedStep_guestStep hm).longMode h
  | regWrite write => exact (regWrite_longMode engine.cpu.context write).trans h
  | contextWrite input => rfl
  | memory call => exact h
  | rawWrite address bytes size => exact h
  | exceptionRaise code errorCode =>
    show (if cpuIsExceptionCode code then
      engine.setContext (engine.cpu.context.raiseException code errorCode)
      else engine).cpu.context.longModeActive = true
    split_ifs
    · obtain ⟨exception, heq⟩ := raiseException_eq engine.cpu.context code errorCode
      show (engine.cpu.context.raiseException code errorCode).longModeActive = true
      rw [heq]
      exact h
    · exact h
  | exceptionClear => exact h
  | setHooks hooks => exact h
  | setEscapes escapes => exact h

/-! ## Further execution -/

/-- The next event of a further execution: a guest step on what is settled and blind, or a
call that leaves the memory, the map and the hooks alone. -/
def Transparent (isa : InstructionSet) (engine : Engine) : EngineEvent → Prop
  | .step => engine.Settled isa ∧ isa.Blind engine.cpu.codeView
  | .hookedStep =>
    engine.Settled isa ∧ isa.Blind engine.cpu.codeView ∧ ∀ entry ∈ engine.escapes, entry.Public
  | .memory _ => False
  | .rawWrite _ _ _ => False
  | .setHooks _ => False
  | _ => True

/-- How the loop goes on after a guest step. -/
def outcome (isa : InstructionSet) (engine : Engine) : EngineEvent → Option CpueaxhErr
  | .step => (engine.plainStep isa).1
  | .hookedStep => (engine.hookedStep isa).1
  | _ => none

/-- How the loop goes on after each event of a run. -/
def outcomes (isa : InstructionSet) : Engine → List EngineEvent → List (Option CpueaxhErr)
  | _, [] => []
  | engine, event :: rest =>
    engine.outcome isa event :: outcomes isa (engine.apply isa event) rest

/-- The run from `engine'` is the run from `engine`, in the results of its steps and in the
registers and the memory behind them. -/
structure ProceedsAs (isa : InstructionSet) (engine engine' : Engine) (further : List EngineEvent) :
    Prop where
  outcomes_eq : engine'.outcomes isa further = engine.outcomes isa further
  visible_eq : (run (Engine.apply isa) engine' further).cpu.context.visible =
    (run (Engine.apply isa) engine further).cpu.context.visible
  host_eq : (run (Engine.apply isa) engine' further).cpu.memory.host =
    (run (Engine.apply isa) engine further).cpu.memory.host

end Engine

/-- A register write is visible in the same way. -/
theorem visible_regWrite {ctx ctx' : CpuContext} (h : ctx'.visible = ctx.visible)
    (write : RegWrite) : (regWrite ctx' write).visible = (regWrite ctx write).visible := by
  obtain ⟨bits, override, size, key, valid, rfl⟩ := exists_withScratch h
  cases write with
  | segment register field => cases register <;> rfl
  | _ => rfl

/-- **One event** has the same outcome on engines that are alike, and keeps them alike. -/
theorem AlikeEngines.apply {engine engine' : Engine} (h : AlikeEngines engine engine')
    {event : EngineEvent} (htransparent : engine.Transparent isa event)
    (htransparent' : engine'.Transparent isa event) :
    engine'.outcome isa event = engine.outcome isa event ∧
      AlikeEngines (engine.apply isa event) (engine'.apply isa event) := by
  have hvisible := h.cpu.visible_eq
  cases event with
  | step =>
    obtain ⟨hsettled, hblind⟩ := htransparent
    obtain ⟨hresult, hafter⟩ := h.step hsettled htransparent'.1 hblind
    exact ⟨(hafter.stepOutcome hresult).1.symm, hafter⟩
  | hookedStep =>
    obtain ⟨hsettled, hblind, hpublic⟩ := htransparent
    obtain ⟨hresult, hafter⟩ := h.hookedStep hsettled htransparent'.1 hblind hpublic
    exact ⟨hresult.symm, hafter⟩
  | regWrite write => exact ⟨rfl, h.setContext (visible_regWrite hvisible write)⟩
  | contextWrite input =>
    refine ⟨rfl, h.setContext ?_⟩
    obtain ⟨bits, override, size, key, valid, heq⟩ := exists_withScratch hvisible
    rw [heq]
    rfl
  | memory call => exact htransparent.elim
  | rawWrite address bytes size => exact htransparent.elim
  | exceptionRaise code errorCode =>
    refine ⟨rfl, ?_⟩
    show AlikeEngines (if _ then _ else _) (if _ then _ else _)
    split_ifs
    · exact h.setContext (visible_raiseException hvisible code errorCode)
    · exact h
  | exceptionClear =>
    refine ⟨rfl, h.setContext ?_⟩
    obtain ⟨bits, override, size, key, valid, heq⟩ := exists_withScratch hvisible
    rw [heq]
    rfl
  | setHooks hooks => exact htransparent.elim
  | setEscapes escapes => exact ⟨rfl, h.cpu, rfl⟩

/-- **A further execution** proceeds in the same way from engines that are alike. -/
theorem AlikeEngines.proceedsAs {engine engine' : Engine} (h : AlikeEngines engine engine')
    {further : List EngineEvent}
    (halong : Along (Engine.apply isa) (Engine.Transparent isa) engine further)
    (halong' : Along (Engine.apply isa) (Engine.Transparent isa) engine' further) :
    Engine.ProceedsAs isa engine engine' further := by
  induction further generalizing engine engine' with
  | nil => exact ⟨rfl, h.cpu.visible_eq, h.cpu.host_eq⟩
  | cons event rest ih =>
    obtain ⟨houtcome, hafter⟩ := h.apply halong.1 halong'.1
    obtain ⟨houtcomes, hvisible, hhost⟩ := ih hafter halong.2 halong'.2
    refine ⟨?_, hvisible, hhost⟩
    unfold Engine.outcomes
    rw [houtcome, houtcomes]

/-! ## The law -/

/-- **Saving and restoring the context.**  The context that is written back in a later
state is read again, and the engine goes on as from the saved state exactly when the x87
state of the later state is the saved one. -/
theorem context_restore_law (isa : InstructionSet) (compat32 cached : Bool) (host : HostMemory)
    (events during : List EngineEvent)
    (hguest : ∀ event ∈ during, event = .step ∨ event = .hookedStep) :
    let saved := run (Engine.apply isa) (openEngine compat32 cached host) events
    let later := run (Engine.apply isa) saved during
    let restored := later.contextWrite saved.contextRead
    later.cpu.memory.host = saved.cpu.memory.host →
    SameHooks saved.cpu.hooks saved.cpu.asked later.cpu.hooks later.cpu.asked →
      restored.contextRead = saved.contextRead ∧
      ((∀ further, Along (Engine.apply isa) (Engine.Transparent isa) saved further →
          Along (Engine.apply isa) (Engine.Transparent isa) restored further →
            Engine.ProceedsAs isa saved restored further) ↔
        later.cpu.context.x87 = saved.cpu.context.x87) := by
  intro saved later restored hhost hhooks
  have hopen : MemoryOk (openEngine compat32 cached host).cpu.memory :=
    memoryOk_openEngine compat32 cached host
  have hinv : MemoryOk saved.cpu.memory ∧ saved.cpu.context.longModeActive = true := by
    apply run_invariant_always
      (fun e : Engine => MemoryOk e.cpu.memory ∧ e.cpu.context.longModeActive = true)
    · rintro e event ⟨hm, hlong⟩
      exact ⟨(apply_frame hm event).ok hm, Engine.longMode_apply hm hlong event⟩
    · exact ⟨hopen, rfl⟩
  obtain ⟨hm, hlong⟩ := hinv
  have hkept : saved.GuestStep later := Engine.run_guestStep hm hguest
  have hvisible := later.contextWrite_visible_iff hlong
  refine ⟨later.contextRead_contextWrite saved, ?_⟩
  rw [← hvisible]
  constructor
  · intro h
    exact (h [] trivial trivial).visible_eq
  · intro h further halong halong'
    apply AlikeEngines.proceedsAs _ halong halong'
    refine ⟨⟨⟨?_, hhooks, hm, hkept.memory.ok hm⟩, h⟩, hkept.escapes_eq⟩
    show later.cpu.memory = _
    rw [hkept.memory.same, hhost]
    rfl

/-! ## A `NOP` between saving and restoring -/

/-- Code that records the prefixes and the size of its instruction, and does nothing else. -/
theorem blindCode_recordDecode {dec : DecodedInst} {bits : PrefixBits} {size : ℕ}
    (hcode : dec.code = (handlerOf (recordDecode bits size), true)) : dec.BlindCode := by
  intro _ cpu cpu' h _
  have hset : ∀ c : Cpu, ((handlerOf (recordDecode bits size)).run handlerOp c).2 =
      c.setContext { c.context with prefixBits := bits, lastInstSize := size } := fun c => rfl
  rw [hcode]
  simp only [hset]
  refine ⟨h.setContext ?_, fun _ _ => rfl⟩
  obtain ⟨before, override, last, key, valid, heq⟩ := exists_withScratch h.visible_eq
  rw [heq]
  rfl

theorem blind_nop (rest : List U8) : sampleSet.Blind (0x90 :: rest) where
  decode_eq ctx ctx' h := by
    obtain ⟨bits, override, size, key, valid, rfl⟩ := exists_withScratch h
    rfl
  code ctx := by
    show (sampleDecode ctx (0x90 :: rest)).BlindCode
    unfold sampleDecode
    split
    · intro hfault
      rw [decodedFault_fault] at hfault
      cases hfault
    · split_ifs
      · apply @blindCode_recordDecode _ (rexBits false false) 1
        unfold decodedWith DecodedInst.code
        cases ctx.hasException with
        | false => rfl
        | true => rfl
      · intro hfault
        cases hfault

/-- A `NOP` is mapped at `0x1000`, and is the next instruction. -/
def atNop : List EngineEvent :=
  [.memory (.layout (.mapPtr 0x1000 0x1000 mmProtExec 0x5000)), .regWrite (.rip 0x1000)]

/-- The `NOP` is executed, and again from the restored context: now it is found in the
instruction cache. -/
theorem context_restore_law_nop :
    let saved := run (Engine.apply sampleSet) (openEngine false true nopPage) atNop
    let later := run (Engine.apply sampleSet) saved [.step]
    let restored := later.contextWrite saved.contextRead
    restored.contextRead = saved.contextRead ∧ restored.hit.isSome = true ∧
      Engine.ProceedsAs sampleSet saved restored [.step] := by
  intro saved later restored
  have hview : saved.cpu.codeView = 0x90 :: List.replicate 14 0 := by decide
  have hview' : restored.cpu.codeView = 0x90 :: List.replicate 14 0 := by decide
  have hblind := blind_nop (List.replicate 14 0)
  have hmiss : saved.hit = none := rfl
  have hlaw := context_restore_law sampleSet false true nopPage atNop [.step] (by simp) rfl
    ⟨rfl, fun _ => rfl⟩
  refine ⟨hlaw.1, by decide, hlaw.2.mpr rfl [.step] ⟨⟨?_, ?_⟩, trivial⟩ ⟨⟨?_, ?_⟩, trivial⟩⟩
  · intro slot hhit
    rw [hmiss] at hhit
    cases hhit
  · rw [hview]
    exact hblind
  · intro slot hhit
    cases hhit
    exact ⟨by decide, rfl, by decide⟩
  · rw [hview']
    exact hblind

/-! ## An `FLDENV` between saving and restoring -/

/-- `execute_x87_env` with the operand `[RDI]` of 64-bit code. -/
def executeX87Env (access : U64 → CpuProgram Unit) : CpuProgram Unit := do
  recordDecode (rexBits false false) 2
  let ctx ← getContext
  access (ctx.regs 7)

/-- The decoder of `FLDENV [RDI]`, of `FNSTENV [RDI]` and of the three instructions. -/
def x87Decode (ctx : CpuContext) (bytes : List U8) : DecodedInst :=
  if (classifyEscapeInstruction ctx bytes).isSome then sampleDecode ctx bytes
  else if bytes.take 2 = [0xD9, 0x27] then
    decodedWith ctx bytes (executeX87Env (x87LoadEnv 32)) none false
  else if bytes.take 2 = [0xD9, 0x37] then
    decodedWith ctx bytes (executeX87Env (x87StoreEnv 32 false)) none false
  else sampleDecode ctx bytes

/-- The five instructions. -/
def x87Set : InstructionSet where
  decode := x87Decode
  bytes_eq ctx bytes := by
    unfold x87Decode
    split_ifs
    · exact sampleSet.bytes_eq ctx bytes
    · exact Or.inr rfl
    · exact Or.inr rfl
    · exact sampleSet.bytes_eq ctx bytes
  escape_fault ctx bytes id size h hid := by
    unfold x87Decode
    rw [h]
    exact sampleSet.escape_fault ctx bytes id size h hid
  not_escape ctx bytes h := by
    unfold x87Decode at h
    split_ifs at h with hsome
    · exact sampleSet.not_escape ctx bytes h
    · exact Option.not_isSome_iff_eq_none.mp hsome
    · exact Option.not_isSome_iff_eq_none.mp hsome
    · exact Option.not_isSome_iff_eq_none.mp hsome

/-- A page of the host with `FLDENV [RDI]`, `FNSTENV [RDI]` and, at `0x5100`, an environment
with the control word `0x027F`. -/
def x87Page : HostMemory :=
  HostMemory.initial (fun a =>
    if a = 0x5000 then 0xD9 else if a = 0x5001 then 0x27
    else if a = 0x5002 then 0xD9 else if a = 0x5003 then 0x37
    else if a = 0x5100 then 0x7F else if a = 0x5101 then 0x02
    else if a = 0x5108 then 0xFF else if a = 0x5109 then 0xFF else 0) fun _ => true

/-- The page is mapped at `0x1000`, `RDI` points to the environment, and the `FLDENV` is
the next instruction. -/
def atFldenv : List EngineEvent :=
  [.memory (.layout (.mapPtr 0x1000 0x1000 (mmProtRead ||| mmProtWrite ||| mmProtExec) 0x5000)),
    .regWrite (.gpr 7 0x1100), .regWrite (.rip 0x1000)]

/-- The control word that `FLDENV` has loaded stays behind a restore: an `FNSTENV` then
stores it to memory, and not the saved one. -/
theorem x87_words_not_restored :
    let saved := run (Engine.apply x87Set) (openEngine false true x87Page) atFldenv
    let later := run (Engine.apply x87Set) saved [.step]
    let restored := later.contextWrite saved.contextRead
    later.cpu.memory.host = saved.cpu.memory.host ∧
      SameHooks saved.cpu.hooks saved.cpu.asked later.cpu.hooks later.cpu.asked ∧
      ¬ ∀ further, (run (Engine.apply x87Set) restored further).cpu.memory.host.read
          (.user 0x5101) =
        (run (Engine.apply x87Set) saved further).cpu.memory.host.read (.user 0x5101) := by
  refine ⟨rfl, ⟨rfl, fun _ => rfl⟩, fun h => ?_⟩
  exact absurd (h [.regWrite (.rip 0x1002), .step]) (by decide +kernel)

end Cpueaxh
