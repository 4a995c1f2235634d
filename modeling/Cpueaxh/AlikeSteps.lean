/-
# Steps of engines that are alike

A step of an engine finds its instruction in the instruction cache or in memory.  When
the entry of the cache is settled, both ways lead to one instruction, and so the caches of
two engines that are alike may differ: the steps have the same result and leave engines
that are alike.
-/
import Cpueaxh.VisibleContext
import Cpueaxh.EngineRuns

namespace Cpueaxh

open HostMemory

variable {isa : InstructionSet}

/-! ## Scratch fields -/

/-- The CPUs differ in the scratch fields of their contexts at most. -/
structure SameButScratch (cpu cpu' : Cpu) : Prop where
  eq : cpu' = cpu.setContext cpu'.context
  visible_eq : cpu'.context.visible = cpu.context.visible

namespace SameButScratch

variable {cpu cpu' : Cpu}

theorem setContext (h : SameButScratch cpu cpu') {ctx ctx' : CpuContext}
    (hctx : ctx'.visible = ctx.visible) :
    SameButScratch (cpu.setContext ctx) (cpu'.setContext ctx') := by
  constructor
  · rw [h.eq]
    rfl
  · exact hctx

theorem setSegmentOverride (h : SameButScratch cpu cpu') (override : ℤ) :
    SameButScratch (cpu.setSegmentOverride override) (cpu'.setSegmentOverride override) :=
  h.setContext h.visible_eq

theorem raise (h : SameButScratch cpu cpu') (code : U32) :
    SameButScratch (cpu.raise code) (cpu'.raise code) :=
  h.setContext (visible_raiseException h.visible_eq code 0)

theorem notifyFetchedBytes (h : SameButScratch cpu cpu') (dec : DecodedInst) :
    SameButScratch (cpu.notifyFetchedBytes dec) (cpu'.notifyFetchedBytes dec) := by
  have hhook : cpu'.hasHookType .memFetch = cpu.hasHookType .memFetch := by
    rw [h.eq]
    rfl
  unfold Cpu.notifyFetchedBytes
  rw [hhook]
  split_ifs
  · exact h.raise cpuExceptionUd
  · exact h

/-- A rollback does not show the scratch fields. -/
theorem visible_rollback {ctx ctx' : CpuContext} (h : ctx'.visible = ctx.visible)
    {snapshot snapshot' : Option CpuContext}
    (hsnapshot : snapshot'.map CpuContext.visible = snapshot.map CpuContext.visible)
    (dec : DecodedInst) :
    (Cpu.rollback dec snapshot' ctx').visible = (Cpu.rollback dec snapshot ctx).visible := by
  obtain ⟨bits, override, size, key, valid, rfl⟩ := exists_withScratch h
  unfold Cpu.rollback
  cases snapshot with
  | none =>
    obtain rfl := Option.map_eq_none_iff.mp hsnapshot
    rfl
  | some saved =>
    obtain ⟨saved', rfl, hsaved⟩ := Option.map_eq_some_iff.mp hsnapshot
    obtain ⟨bits', override', size', key', valid', rfl⟩ := exists_withScratch hsaved
    simp only
    split_ifs
    · rfl
    · rfl
    · rfl

theorem finish (h : SameButScratch cpu cpu') {snapshot snapshot' : Option CpuContext}
    (hsnapshot : snapshot'.map CpuContext.visible = snapshot.map CpuContext.visible)
    (dec : DecodedInst) (result : StepResult) :
    (cpu'.finish dec snapshot' result).1 = (cpu.finish dec snapshot result).1 ∧
      SameButScratch (cpu.finish dec snapshot result).2 (cpu'.finish dec snapshot' result).2 := by
  unfold Cpu.finish
  rw [visible_hasException h.visible_eq]
  split_ifs
  · refine ⟨rfl, ?_⟩
    apply setSegmentOverride
    exact h.setContext (visible_rollback h.visible_eq hsnapshot dec)
  · exact ⟨rfl, h.setSegmentOverride (-1)⟩

end SameButScratch

/-! ## Blind instructions -/

/-- The code of an instruction that does not fault at once does the same whatever the
scratch fields hold, the override of the segment excepted, which the executor sets; and where
the executor advances `rip` behind the code, the code has set the size of the instruction. -/
def DecodedInst.BlindCode (dec : DecodedInst) : Prop :=
  dec.flags.fault = none → ∀ cpu cpu' : Cpu, SameButScratch cpu cpu' →
    cpu'.context.segmentOverride = cpu.context.segmentOverride →
      SameButScratch (dec.code.1.run handlerOp cpu).2 (dec.code.1.run handlerOp cpu').2 ∧
      (dec.code.2 = true → (dec.code.1.run handlerOp cpu).2.context.hasException = false →
        (dec.code.1.run handlerOp cpu').2.context.lastInstSize =
          (dec.code.1.run handlerOp cpu).2.context.lastInstSize)

/-- The decoder and the code of the instruction with these bytes are blind to the scratch
fields. -/
structure InstructionSet.Blind (isa : InstructionSet) (bytes : List U8) : Prop where
  decode_eq : ∀ ctx ctx', ctx'.visible = ctx.visible → isa.decode ctx' bytes = isa.decode ctx bytes
  code : ∀ ctx, (isa.decode ctx bytes).BlindCode

namespace SameButScratch

variable {cpu cpu' : Cpu} {dec : DecodedInst}

theorem runCode (h : SameButScratch cpu cpu') (hblind : dec.BlindCode)
    (hfault : dec.flags.fault = none)
    (hoverride : cpu'.context.segmentOverride = cpu.context.segmentOverride) (ripPre : U64) :
    SameButScratch (cpu.runCode dec ripPre) (cpu'.runCode dec ripPre) := by
  obtain ⟨hcode, hsize⟩ := hblind hfault cpu cpu' h hoverride
  unfold Cpu.runCode
  simp only
  rw [visible_hasException hcode.visible_eq]
  split_ifs with hadvance
  · simp only [Bool.and_eq_true, Bool.not_eq_true'] at hadvance
    rw [hsize hadvance.2 hadvance.1]
    apply hcode.setContext
    obtain ⟨bits, override, size, key, valid, heq⟩ := exists_withScratch hcode.visible_eq
    rw [heq]
    rfl
  · exact hcode

/-- **A blind instruction** does the same whatever the scratch fields hold. -/
theorem dispatchDecoded (h : SameButScratch cpu cpu') (hblind : dec.BlindCode) (ripPre : U64) :
    (cpu'.dispatchDecoded dec ripPre).1 = (cpu.dispatchDecoded dec ripPre).1 ∧
      SameButScratch (cpu.dispatchDecoded dec ripPre).2 (cpu'.dispatchDecoded dec ripPre).2 := by
  have hbegin := (h.notifyFetchedBytes dec).setSegmentOverride dec.segmentOverride
  unfold Cpu.dispatchDecoded
  simp only
  split_ifs with hud hbp hdb hnoFault
  · exact (hbegin.raise cpuExceptionUd).finish rfl dec .ud
  · exact (hbegin.raise cpuExceptionBp).finish rfl dec .exception
  · exact (hbegin.raise cpuExceptionDb).finish rfl dec .exception
  · have hfault : dec.flags.fault = none := by
      unfold DecodedFlags.fault
      rw [if_neg hud, if_neg hbp, if_neg hdb]
    exact (hbegin.runCode hblind hfault rfl ripPre).finish rfl dec .ok
  · have hfault : dec.flags.fault = none := by
      unfold DecodedFlags.fault
      rw [if_neg hud, if_neg hbp, if_neg hdb]
    apply (hbegin.runCode hblind hfault rfl ripPre).finish
    exact congrArg some hbegin.visible_eq

end SameButScratch

/-- **A blind instruction** has the same result on CPUs that are alike and keeps them
alike. -/
theorem Alike.dispatchDecoded {cpu cpu' : Cpu} (h : Alike cpu cpu') {dec : DecodedInst}
    (hblind : dec.BlindCode) (ripPre : U64) :
    (cpu.dispatchDecoded dec ripPre).1 = (cpu'.dispatchDecoded dec ripPre).1 ∧
      Alike (cpu.dispatchDecoded dec ripPre).2 (cpu'.dispatchDecoded dec ripPre).2 := by
  -- in between stands the first CPU with the scratch fields of the second
  have hscratch : SameButScratch cpu (cpu.setContext cpu'.context) := ⟨rfl, h.visible_eq⟩
  have htwin : Twin (cpu.setContext cpu'.context) cpu' :=
    ⟨h.toSameSurroundings.setContext cpu'.context cpu'.context, rfl⟩
  obtain ⟨hresult, hafter⟩ := hscratch.dispatchDecoded hblind ripPre
  obtain ⟨hresult', hafter'⟩ := htwin.dispatchDecoded dec ripPre
  have halike := hafter'.alike
  rw [hafter.eq] at halike
  constructor
  · rw [← hresult', hresult]
  · constructor
    · exact ⟨halike.memory_eq, halike.hooks, halike.ok, halike.ok'⟩
    · exact halike.visible_eq.trans hafter.visible_eq

/-! ## Engines -/

/-- The CPUs are alike and the escapes are the same; the instruction caches may differ. -/
structure AlikeEngines (engine engine' : Engine) : Prop where
  cpu : Alike engine.cpu engine'.cpu
  escapes_eq : engine'.escapes = engine.escapes

/-- The entry of the instruction cache that a step would use is what the bytes at `rip`
decode to, and all bytes that a fetch reads could be fetched. -/
def Engine.Settled (isa : InstructionSet) (engine : Engine) : Prop :=
  ∀ slot, engine.hit = some slot →
    engine.cpu.codeView.length = maxInstFetch ∧
      slot.decoded = isa.decode engine.cpu.context engine.cpu.codeView ∧
      slot.decoded.bytes.length ≠ 0

namespace Engine

/-- The CPU where a step begins to execute: behind the fetch, unless that was made
before. -/
def located (engine : Engine) (prefetched : List U8) : Cpu :=
  if prefetched = [] then engine.cpu.behindFetch else engine.cpu

@[simp] theorem commit_escapes (engine : Engine) (rip : U64) (mode : U8) (dec : DecodedInst) :
    (engine.commit rip mode dec).escapes = engine.escapes := by
  unfold Engine.commit
  cases engine.instCache with
  | none => rfl
  | some slots =>
    simp only
    split_ifs
    · rfl
    · rfl

/-- A settled step that may be made without a fetch is made as if behind it. -/
theorem Settled.located {engine : Engine} (hm : MemoryOk engine.cpu.memory)
    (h : engine.Settled isa) {slot : InstCacheEntry} (hhit : engine.hit = some slot)
    (prefetched : List U8) : Alike (engine.located prefetched) engine.cpu := by
  unfold Engine.located
  split_ifs
  · exact (Alike.behindFetch_full hm (h slot hhit).1).symm
  · exact .refl hm

/-- **Finding the instruction** in a settled cache is finding it in memory. -/
theorem Resolved.settled {engine : Engine} (hm : MemoryOk engine.cpu.memory)
    (hsettled : engine.Settled isa) (hblind : isa.Blind engine.cpu.codeView)
    {prefetched : List U8} {found : Option DecodedInst × Engine}
    (h : Resolved isa engine prefetched found) :
    found.1 = (if engine.cpu.codeView = [] then none
        else some (isa.decode (engine.located prefetched).context engine.cpu.codeView)) ∧
      Alike (engine.located prefetched) found.2.cpu ∧ found.2.escapes = engine.escapes := by
  have hkeyed := Alike.keyed hm
  cases h with
  | cached hhit =>
    have hlocated := hsettled.located hm hhit prefetched
    obtain ⟨hfull, hdec, -⟩ := hsettled _ hhit
    have hview : engine.cpu.codeView ≠ [] := by
      intro hnil
      rw [hnil] at hfull
      exact absurd hfull (by decide)
    refine ⟨?_, hlocated.trans hkeyed, rfl⟩
    rw [if_neg hview, hdec]
    exact congrArg some (hblind.decode_eq _ _ hlocated.visible_eq)
  | empty hhit hpre hfetch hview =>
    refine ⟨(if_pos hview).symm, ?_, rfl⟩
    unfold Engine.located
    rw [if_pos hpre]
    exact hkeyed.behindFetch.trans (.of_fetched hm hfetch)
  | @decoded cpu hhit hfetch hview =>
    have hlocated : Alike (engine.located prefetched) cpu := by
      unfold Engine.located
      rcases hfetch with ⟨hpre, hfetch⟩ | ⟨hpre, rfl⟩
      · rw [if_pos hpre]
        exact hkeyed.behindFetch.trans (.of_fetched hm hfetch)
      · rw [if_neg hpre]
        exact hkeyed
    refine ⟨?_, ?_, ?_⟩
    · rw [if_neg hview]
      exact congrArg some (hblind.decode_eq _ _ hlocated.visible_eq)
    · rw [commit_cpu]
      exact hlocated
    · rw [commit_escapes]

end Engine

namespace AlikeEngines

variable {engine engine' : Engine}

theorem refl (hm : MemoryOk engine.cpu.memory) : AlikeEngines engine engine := ⟨.refl hm, rfl⟩

theorem setContext (h : AlikeEngines engine engine') {ctx ctx' : CpuContext}
    (hctx : ctx'.visible = ctx.visible) :
    AlikeEngines (engine.setContext ctx) (engine'.setContext ctx') :=
  ⟨h.cpu.setContext hctx, h.escapes_eq⟩

theorem keyed (hm : MemoryOk engine.cpu.memory) : AlikeEngines engine engine.keyed :=
  ⟨.keyed hm, rfl⟩

/-! ## Steps -/

theorem located (h : AlikeEngines engine engine') (prefetched : List U8) :
    Alike (engine.located prefetched) (engine'.located prefetched) := by
  unfold Engine.located
  split_ifs
  · exact h.cpu.behindFetch
  · exact h.cpu

theorem fetchFailed (h : AlikeEngines engine engine') :
    engine.fetchFailed.1 = engine'.fetchFailed.1 ∧
      AlikeEngines engine.fetchFailed.2 engine'.fetchFailed.2 := by
  unfold Engine.fetchFailed
  rw [visible_hasException h.cpu.visible_eq]
  exact ⟨rfl, h.cpu.setSegmentOverride (-1), h.escapes_eq⟩

/-- **A step** has the same result on engines that are alike, and keeps them alike. -/
theorem stepWithPrefetch (h : AlikeEngines engine engine') (hsettled : engine.Settled isa)
    (hsettled' : engine'.Settled isa) (hblind : isa.Blind engine.cpu.codeView)
    {prefetched : List U8} (hpre : prefetched = [] ∨ prefetched = engine.cpu.codeView) :
    (engine.stepWithPrefetch isa prefetched).1 = (engine'.stepWithPrefetch isa prefetched).1 ∧
      AlikeEngines (engine.stepWithPrefetch isa prefetched).2
        (engine'.stepWithPrefetch isa prefetched).2 := by
  unfold Engine.stepWithPrefetch
  rw [visible_hasException h.cpu.visible_eq, visible_rip h.cpu.visible_eq]
  cases hexc : engine.cpu.context.hasException with
  | true => exact ⟨rfl, h⟩
  | false =>
    simp only [Bool.false_eq_true, if_false]
    have hexc' := (visible_hasException h.cpu.visible_eq).trans hexc
    have hview := h.cpu.codeView_eq
    obtain ⟨hfound, halike, hescapes⟩ :=
      (Engine.resolve_resolved isa h.cpu.ok hexc hpre).settled h.cpu.ok hsettled hblind
    obtain ⟨hfound', halike', hescapes'⟩ :=
      (Engine.resolve_resolved isa h.cpu.ok' hexc' (hview ▸ hpre)).settled h.cpu.ok' hsettled'
        (hview ▸ hblind)
    have hsame : (engine'.resolve isa prefetched).1 = (engine.resolve isa prefetched).1 := by
      rw [hfound, hfound', hview]
      split_ifs
      · rfl
      · exact congrArg some (hblind.decode_eq _ _ (h.located prefetched).visible_eq)
    have hengines : AlikeEngines (engine.resolve isa prefetched).2
        (engine'.resolve isa prefetched).2 := by
      constructor
      · exact (halike.symm.trans (h.located prefetched)).trans halike'
      · rw [hescapes', hescapes, h.escapes_eq]
    rcases hr : engine.resolve isa prefetched with ⟨found, engine₁⟩
    rcases hr' : engine'.resolve isa prefetched with ⟨found', engine₁'⟩
    rw [hr, hr'] at hsame hengines
    rw [hr] at hfound
    simp only at hsame hfound hengines
    subst hsame
    cases found' with
    | none => exact hengines.fetchFailed
    | some dec =>
      simp only
      split_ifs
      · split_ifs at hfound
        obtain rfl := Option.some.inj hfound
        obtain ⟨hresult, hafter⟩ := hengines.cpu.dispatchDecoded
          (hblind.code (engine.located prefetched).context) engine.cpu.context.rip
        exact ⟨hresult, hafter, hengines.escapes_eq⟩
      · exact hengines.fetchFailed

theorem step (h : AlikeEngines engine engine') (hsettled : engine.Settled isa)
    (hsettled' : engine'.Settled isa) (hblind : isa.Blind engine.cpu.codeView) :
    (engine.step isa).1 = (engine'.step isa).1 ∧
      AlikeEngines (engine.step isa).2 (engine'.step isa).2 :=
  h.stepWithPrefetch hsettled hsettled' hblind (Or.inl rfl)

/-- The loop goes on in the same way. -/
theorem stepOutcome {result result' : StepResult} (h : AlikeEngines engine engine')
    (hresult : result = result') :
    (stepOutcome (result, engine)).1 = (stepOutcome (result', engine')).1 ∧
      AlikeEngines (Cpueaxh.stepOutcome (result, engine)).2
        (Cpueaxh.stepOutcome (result', engine')).2 := by
  subst hresult
  rw [Engine.stepOutcome_snd, Engine.stepOutcome_snd]
  refine ⟨?_, h⟩
  obtain ⟨bits, override, size, key, valid, heq⟩ := exists_withScratch h.cpu.visible_eq
  unfold Cpueaxh.stepOutcome
  cases result with
  | ok => rfl
  | halt => rfl
  | fetchErr => rfl
  | ud => rfl
  | exception =>
    simp only [heq]
    rfl

end AlikeEngines

/-! ## Escapes -/

/-- The callback gets the public context, and leaves a public context. -/
def EscapeEntry.Public (entry : EscapeEntry) : Prop :=
  ∃ callback : X86Context → List U8 →
      Except {error : CpueaxhErr // error ≠ cpueaxhErrOk} X86Context,
    ∀ ctx bytes, entry.callback ctx bytes =
      (callback (cpueaxhContextOut ctx) bytes).map fun output => output.over ctx

/-- What a public callback leaves is visible in the same way. -/
theorem EscapeEntry.Public.visible {entry : EscapeEntry} (h : entry.Public) {ctx ctx' : CpuContext}
    (hctx : ctx'.visible = ctx.visible) (bytes : List U8) :
    (∃ error, entry.callback ctx bytes = .error error ∧ entry.callback ctx' bytes = .error error) ∨
      ∃ output output', entry.callback ctx bytes = .ok output ∧
        entry.callback ctx' bytes = .ok output' ∧
        (contextIn ctx' output').visible = (contextIn ctx output).visible := by
  obtain ⟨callback, hcallback⟩ := h
  rw [hcallback, hcallback, visible_contextOut hctx]
  cases callback (cpueaxhContextOut ctx) bytes with
  | error error => exact Or.inl ⟨error, rfl, rfl⟩
  | ok output =>
    refine Or.inr ⟨_, _, rfl, rfl, ?_⟩
    obtain ⟨bits, override, size, key, valid, rfl⟩ := exists_withScratch hctx
    rfl

/-- The context behind an instruction is visible in the same way. -/
theorem visible_advance {ctx ctx' : CpuContext} (h : ctx'.visible = ctx.visible) (rip : U64)
    (size : ℤ) : ({ ctx' with rip := rip, lastInstSize := size } : CpuContext).visible =
      ({ ctx with rip := rip, lastInstSize := size } : CpuContext).visible := by
  obtain ⟨bits, override, last, key, valid, rfl⟩ := exists_withScratch h
  rfl

/-- **An escape** is taken in the same way. -/
theorem tryDispatchEscape_visible {escapes : List EscapeEntry}
    (hpublic : ∀ entry ∈ escapes, entry.Public) {ctx ctx' : CpuContext}
    (hctx : ctx'.visible = ctx.visible) (address : U64) (bytes : List U8) :
    (tryDispatchEscape escapes ctx' address bytes).map (fun r => (r.1, r.2.visible)) =
      (tryDispatchEscape escapes ctx address bytes).map fun r => (r.1, r.2.visible) := by
  have hclass : classifyEscapeInstruction ctx' bytes = classifyEscapeInstruction ctx bytes := by
    obtain ⟨bits, override, size, key, valid, rfl⟩ := exists_withScratch hctx
    rfl
  unfold tryDispatchEscape
  rw [hclass]
  cases classifyEscapeInstruction ctx bytes with
  | none => rfl
  | some found =>
    obtain ⟨id, size⟩ := found
    simp only
    cases hentry : (lookupEscapeEntry escapes id).filter fun entry =>
        cpueaxhRangeContains entry.first entry.last address with
    | none =>
      simp only
      split_ifs
      · rfl
      · simp only [Option.map_some, visible_raiseException hctx]
    | some entry =>
      have hmem : entry ∈ escapes := by
        obtain ⟨hlookup, -⟩ := Option.filter_eq_some_iff.mp hentry
        exact List.mem_of_mem_take (List.mem_reverse.mp (List.mem_of_find?_eq_some hlookup))
      simp only
      rcases (hpublic entry hmem).visible hctx bytes with
        ⟨error, herror, herror'⟩ | ⟨output, output', hok, hok', hvisible⟩
      · rw [herror, herror']
        simp only [Option.map_some, hctx]
      · rw [hok, hok']
        simp only [Option.map_some, visible_rip hvisible, visible_rip hctx]
        have hnext := visible_advance hvisible
          (if (contextIn ctx output).rip = ctx.rip then ctx.rip + BitVec.ofNat 64 size
            else (contextIn ctx output).rip) size
        rw [visible_hasException hnext, hnext]

/-! ## Turns of the loop with hooks -/

namespace Engine

/-- A settled engine stays settled in its place, with the same visible fields where a
cached instruction is found. -/
theorem Settled.of_samePlace {engine engine₁ : Engine} (h : engine.Settled isa)
    (hblind : isa.Blind engine.cpu.codeView) (hplace : SamePlace engine engine₁)
    (hvisible : ∀ slot, engine.hit = some slot →
      engine₁.cpu.context.visible = engine.cpu.context.visible) : engine₁.Settled isa := by
  intro slot hhit
  rw [hplace.hit_eq] at hhit
  obtain ⟨hfull, hdec, hbytes⟩ := h slot hhit
  rw [hplace.view_eq]
  refine ⟨hfull, ?_, hbytes⟩
  rw [hdec]
  exact (hblind.decode_eq _ _ (hvisible slot hhit)).symm

/-- The bytes that a turn fetches. -/
def fetchedBytes (engine : Engine) : List U8 :=
  if engine.cpu.context.hasException then [] else engine.cpu.codeView

/-- The CPU behind the fetch of a turn. -/
def behindFetch (engine : Engine) : Cpu :=
  if engine.cpu.context.hasException then engine.cpu else engine.cpu.behindFetch

/-- The engine `engine₁` is the one behind the fetch of a turn. -/
structure Behind (isa : InstructionSet) (engine engine₁ : Engine) : Prop where
  cpu : Alike engine.behindFetch engine₁.cpu
  escapes_eq : engine₁.escapes = engine.escapes
  settled : engine₁.Settled isa
  view_eq : engine₁.cpu.codeView = engine.cpu.codeView

/-- The turn that uses the cached instruction itself could as well fetch it. -/
theorem stepDecoded_eq {engine : Engine} (hsettled : engine.Settled isa)
    (hblind : isa.Blind engine.cpu.codeView) {slot : InstCacheEntry}
    (hhit : engine.hit = some slot) (hknown : slot.decoded.flags.knownNotEscape = true) :
    stepOutcome (engine.keyed.stepDecoded slot) =
      engine.keyed.stepFetched isa engine.fetchedBytes engine.cpu.context.rip := by
  have hexc : engine.keyed.cpu.context.hasException = engine.cpu.context.hasException :=
    modeKey_hasException _
  unfold Engine.stepFetched Engine.fetchedBytes Engine.stepDecoded Engine.stepWithPrefetch
  rw [hexc]
  cases engine.cpu.context.hasException with
  | true => rfl
  | false =>
    obtain ⟨hfull, hdec, hbytes⟩ := hsettled slot hhit
    have hview : engine.cpu.codeView.length ≠ 0 := by
      rw [hfull]
      decide
    have hclass : classifyEscapeInstruction engine.keyed.cpu.context engine.cpu.codeView = none := by
      have hsame : isa.decode engine.keyed.cpu.context engine.cpu.codeView =
          isa.decode engine.cpu.context engine.cpu.codeView :=
        hblind.decode_eq _ _ (visible_modeKey engine.cpu.context)
      apply isa.not_escape
      rw [hsame, ← hdec]
      exact hknown
    have hescape : tryDispatchEscape engine.keyed.escapes engine.keyed.cpu.context
        engine.cpu.context.rip engine.cpu.codeView = none := by
      unfold tryDispatchEscape
      rw [hclass]
    have hhit' : engine.keyed.hit = some slot := by rw [(samePlace_keyed engine).hit_eq, hhit]
    have hkeyed : engine.keyed.keyed = engine.keyed := by
      unfold Engine.keyed Cpu.keyed Cpu.setContext
      simp only [modeKey_idem]
    simp only [Bool.false_eq_true, if_false, hview, hescape, resolve_hit hhit', hkeyed, hbytes,
      ne_eq, not_false_eq_true, if_true]

/-- **A turn** fetches, looks for an escape and makes a step, whatever is cached. -/
theorem hookedStep_eq {engine : Engine} (hm : MemoryOk engine.cpu.memory)
    (hsettled : engine.Settled isa) (hblind : isa.Blind engine.cpu.codeView) :
    ∃ engine₁, Behind isa engine engine₁ ∧
      engine.hookedStep isa =
        engine₁.stepFetched isa engine.fetchedBytes engine.cpu.context.rip := by
  have hfirst : ∀ engine₁, engine₁ = engine ∨ engine₁ = engine.keyed →
      AlikeEngines engine engine₁ := by
    rintro engine₁ (rfl | rfl)
    · exact .refl hm
    · exact .keyed hm
  unfold Engine.fetchedBytes
  have hturn := @hookedStep_turn isa engine hm
  generalize engine.hookedStep isa = out at hturn ⊢
  cases hturn with
  | @cached slot hhit hknown =>
    have halike := AlikeEngines.keyed hm
    have hplace := samePlace_keyed engine
    refine ⟨engine.keyed, ⟨?_, rfl, ?_, hplace.view_eq⟩, stepDecoded_eq hsettled hblind hhit hknown⟩
    · unfold Engine.behindFetch
      split_ifs
      · exact halike.cpu
      · exact (Alike.behindFetch_full hm (hsettled slot hhit).1).symm.trans halike.cpu
    · exact hsettled.of_samePlace hblind hplace fun _ _ => halike.cpu.visible_eq
  | @faulted engine₁ hplace hexc =>
    have halike := hfirst engine₁ hplace
    have hstays := stays_of_place hplace
    rw [visible_hasException halike.cpu.visible_eq] at hexc
    rw [if_pos hexc]
    refine ⟨engine₁, ⟨?_, halike.escapes_eq, ?_, hstays.view_eq⟩, rfl⟩
    · unfold Engine.behindFetch
      rw [if_pos hexc]
      exact halike.cpu
    · exact hsettled.of_samePlace hblind hstays.toSamePlace fun _ _ => halike.cpu.visible_eq
  | @fetched engine₁ cpu hplace hexc hfetch =>
    have halike := hfirst engine₁ hplace
    have hstays := (stays_of_place hplace).trans (stays_fetched hfetch)
    have hbehind : Alike engine.cpu.behindFetch cpu :=
      halike.cpu.behindFetch.trans (.of_fetched halike.cpu.ok' hfetch)
    rw [visible_hasException halike.cpu.visible_eq] at hexc
    rw [hexc]
    refine ⟨{ engine₁ with cpu := cpu }, ⟨?_, halike.escapes_eq, ?_, hstays.view_eq⟩, rfl⟩
    · unfold Engine.behindFetch
      rw [hexc]
      exact hbehind
    · apply hsettled.of_samePlace hblind hstays.toSamePlace
      intro slot hhit
      -- a settled entry is found where the fetch finds all its bytes
      exact ((Alike.behindFetch_full hm (hsettled slot hhit).1).trans hbehind).visible_eq

end Engine

namespace AlikeEngines

variable {engine engine' : Engine}

theorem behindFetch (h : AlikeEngines engine engine') :
    Alike engine.behindFetch engine'.behindFetch := by
  unfold Engine.behindFetch
  rw [visible_hasException h.cpu.visible_eq]
  split_ifs
  · exact h.cpu
  · exact h.cpu.behindFetch

theorem fetchedBytes_eq (h : AlikeEngines engine engine') :
    engine'.fetchedBytes = engine.fetchedBytes := by
  unfold Engine.fetchedBytes
  rw [visible_hasException h.cpu.visible_eq, h.cpu.codeView_eq]

/-- The part of a turn behind the fetch. -/
theorem stepFetched (h : AlikeEngines engine engine') (hsettled : engine.Settled isa)
    (hsettled' : engine'.Settled isa) (hblind : isa.Blind engine.cpu.codeView)
    (hpublic : ∀ entry ∈ engine.escapes, entry.Public) {bytes : List U8}
    (hbytes : bytes = [] ∨ bytes = engine.cpu.codeView) (address : U64) :
    (engine.stepFetched isa bytes address).1 = (engine'.stepFetched isa bytes address).1 ∧
      AlikeEngines (engine.stepFetched isa bytes address).2
        (engine'.stepFetched isa bytes address).2 := by
  have hescape : (if bytes.length = 0 then none
      else tryDispatchEscape engine'.escapes engine'.cpu.context address bytes).map
        (fun r => (r.1, r.2.visible)) = (if bytes.length = 0 then none
      else tryDispatchEscape engine.escapes engine.cpu.context address bytes).map
        fun r => (r.1, r.2.visible) := by
    split_ifs
    · rfl
    · rw [h.escapes_eq]
      exact tryDispatchEscape_visible hpublic h.cpu.visible_eq address bytes
  unfold Engine.stepFetched
  simp only
  generalize (if bytes.length = 0 then none
      else tryDispatchEscape engine.escapes engine.cpu.context address bytes) = taken at hescape
  generalize (if bytes.length = 0 then none
      else tryDispatchEscape engine'.escapes engine'.cpu.context address bytes) = taken' at hescape
  rcases taken with _ | ⟨error, ctx⟩ <;> rcases taken' with _ | ⟨error', ctx'⟩
  · obtain ⟨hresult, hafter⟩ := h.stepWithPrefetch hsettled hsettled' hblind hbytes
    exact hafter.stepOutcome hresult
  · cases hescape
  · cases hescape
  · obtain ⟨rfl, hvisible⟩ := Prod.mk.inj (Option.some.inj hescape)
    exact ⟨rfl, h.setContext hvisible⟩

/-- **A turn of the loop with hooks.** -/
theorem hookedStep (h : AlikeEngines engine engine') (hsettled : engine.Settled isa)
    (hsettled' : engine'.Settled isa) (hblind : isa.Blind engine.cpu.codeView)
    (hpublic : ∀ entry ∈ engine.escapes, entry.Public) :
    (engine.hookedStep isa).1 = (engine'.hookedStep isa).1 ∧
      AlikeEngines (engine.hookedStep isa).2 (engine'.hookedStep isa).2 := by
  have hview := h.cpu.codeView_eq
  obtain ⟨engine₁, hbehind, heq⟩ := Engine.hookedStep_eq h.cpu.ok hsettled hblind
  obtain ⟨engine₁', hbehind', heq'⟩ :=
    Engine.hookedStep_eq h.cpu.ok' hsettled' (hview ▸ hblind)
  have halike : AlikeEngines engine₁ engine₁' := by
    constructor
    · exact (hbehind.cpu.symm.trans h.behindFetch).trans hbehind'.cpu
    · rw [hbehind'.escapes_eq, hbehind.escapes_eq, h.escapes_eq]
  rw [heq, heq', h.fetchedBytes_eq, visible_rip h.cpu.visible_eq]
  apply halike.stepFetched hbehind.settled hbehind'.settled
  · rw [hbehind.view_eq]
    exact hblind
  · rw [hbehind.escapes_eq]
    exact hpublic
  · rw [hbehind.view_eq]
    unfold Engine.fetchedBytes
    split_ifs
    · exact Or.inl rfl
    · exact Or.inr rfl

end AlikeEngines

end Cpueaxh
