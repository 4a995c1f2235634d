/-
# Changes of the hooks and escapes during a run

A callback may add and delete hooks and escapes, and the next instruction should see the
table as it is then.  `cpueaxh_dispatch_code_hooks` and `cpueaxh_try_dispatch_escape` read
the table when they are called.  But `cpueaxh_emu_start` has decided before its loop whether
to call the dispatcher at all, by the hooks that there were then, so the first hook of a
type that is added during the run is not called in it.
-/
import Cpueaxh.HostedRuns

namespace Cpueaxh

open Transition

variable {ω : Type}

/-! ## Which hooks are called -/

namespace Hosted

/-- The calls of callbacks at an event; `needed` is the flag of the loop for its type. -/
def codeCalls (p : HostProgram ω) (needed : Bool) (type : HookType) (address : U64)
    (h : Hosted ω) : List (HookSlot × HookEntry) :=
  if needed then (dispatchCodeHooks p.hostCode type address h.table h.shared).calls else []

/-- The hooks in the table whose range contains the address are called, each once, unless
one is deleted before its turn; and nothing is called that is not in the table at its
turn. -/
structure InvokesDue (p : HostProgram ω) (needed : Bool) (type : HookType) (address : U64)
    (h : Hosted ω) : Prop where
  once : ∀ index hook, h.table.Due ∅ type address index hook →
    (needed = true →
      (dispatchLoop p.hostCode type address h.table h.shared index).1.Kept index hook) →
    (h.codeCalls p needed type address).count (index, hook) = 1
  nodup : ((h.codeCalls p needed type address).map Prod.fst).Nodup
  only : ∀ index hook, (index, hook) ∈ h.codeCalls p needed type address →
    (h.dispatched p type address index).table.hooks index = some hook ∧ hook.type = type ∧
      cpueaxhRangeContains hook.first hook.last address = true

/-- The flag is right for the event: without it no hook is due, and with it the turns of
the hooks come in time. -/
structure KnowsDue (p : HostProgram ω) (needed : Bool) (type : HookType) (address : U64)
    (h : Hosted ω) : Prop where
  absent : needed = false → ∀ index hook, ¬ h.table.Due ∅ type address index hook
  inTime : needed = true → TurnsInTime p.hostCode ∅ type address h.table h.shared

end Hosted

variable {p : HostProgram ω} {needed : Bool} {type : HookType} {address : U64} {h : Hosted ω}

/-- A hook is in the table at its turn. -/
theorem present_of_called (hs : h.table.Sound) {index : HookSlot} {hook : HookEntry}
    (hcalled : (index, hook) ∈ (dispatchCodeHooks p.hostCode type address h.table h.shared).calls) :
    (h.dispatched p type address index).table.hooks index = some hook := by
  obtain ⟨hlt, hslot, -, -⟩ := hs.mem_calls_iff.mp hcalled
  unfold Hosted.dispatched
  dsimp only
  rw [hs.dispatchLoop_eq, SlotScan.limited_eq_walk hlt.le]
  exact hslot

/-- **One event.**  The due hooks are called exactly if the flag is right. -/
theorem invokesDue_iff (hs : h.table.Sound) (hcode : type.isCode = true) :
    h.InvokesDue p needed type address ↔ h.KnowsDue p needed type address := by
  have hpoints : ∀ hook ∈ (∅ : Set HookEntry), hook.first = hook.last :=
    fun hook hmem => absurd hmem (Set.notMem_empty hook)
  cases needed with
  | false =>
    constructor
    · intro hinvokes
      constructor
      · intro _ index hook hdue
        have honce := hinvokes.once index hook hdue (fun hneed => by cases hneed)
        exact absurd honce (by simp [Hosted.codeCalls])
      · rintro ⟨⟩
    · intro hknows
      constructor
      · intro index hook hdue _
        exact absurd hdue (hknows.absent rfl index hook)
      · exact List.nodup_nil
      · intro index hook hcalled
        cases hcalled
  | true =>
    have hlaw := @HookTable.Sound.firesOnce_iff _ p.hostCode ∅ type address h.table h.shared hs
      hcode hpoints
    constructor
    · intro hinvokes
      constructor
      · rintro ⟨⟩
      · intro _
        exact hlaw.mp ⟨fun index hook hdue hkept => hinvokes.once index hook hdue fun _ => hkept,
          hinvokes.nodup⟩
    · intro hknows
      have hfires := hlaw.mpr (hknows.inTime rfl)
      constructor
      · exact fun index hook hdue hkept => hfires.once index hook hdue (hkept rfl)
      · exact hfires.nodup
      · intro index hook hcalled
        obtain ⟨-, -, htype, hfires⟩ := hs.mem_calls_iff.mp hcalled
        exact ⟨present_of_called hs hcalled, htype, (Bool.and_eq_true_iff.mp hfires).2⟩

/-- At an event whose callbacks leave the hooks alone, exactly the hooks of the table are
called. -/
theorem Hosted.InvokesDue.mem_iff (hs : h.table.Sound) (h' : h.InvokesDue p needed type address)
    (hquiet : ∀ k, ∀ table ∈ (dispatchLoop p.hostCode type address h.table h.shared k).1.tables,
      table.hooks = h.table.hooks) (index : HookSlot) (hook : HookEntry) :
    (index, hook) ∈ h.codeCalls p needed type address ↔
      h.table.Due ∅ type address index hook := by
  constructor
  · intro hcalled
    obtain ⟨hslot, htype, hrange⟩ := h'.only index hook hcalled
    have hgood : (dispatchLoop p.hostCode type address h.table h.shared index).1.Good := by
      rw [hs.dispatchLoop_eq]
      exact scan_good hs index
    constructor
    · rw [← hquiet index _ hgood.current]
      exact hslot
    · exact htype
    · exact ⟨fun hmem => absurd hmem (Set.notMem_empty hook), fun _ => hrange⟩
  · intro hdue
    have honce := h'.once index hook hdue fun _ table hmem => by
      rw [hquiet index table hmem]
      exact hdue.present
    apply List.count_pos_iff.mp
    omega

/-! ## Which escape is called -/

namespace Hosted

/-- The state in which the loop looks for an escape. -/
def lookState (p : HostProgram ω) (address : U64) (h : Hosted ω) : Hosted ω :=
  match h.shared.engine.fastSlotAt address with
  | (some _, _) => h
  | (none, engine) => ((h.setEngine engine).fetch p address).2

/-- An escape is registered for the class and the range of the instruction at `rip`, which
no pending exception keeps from being executed. -/
structure Registered (p : HostProgram ω) (address : U64) (h : Hosted ω) (escape : EscapeRecord) :
    Prop where
  quiet : h.context.hasException = false
  mem : escape ∈ (h.lookState p address).table.escapes
  ofClass : ∃ id length, EscapeEncoding h.context.is64BitCode h.codeView id length ∧
    escape.instructionId = id.code
  inRange : cpueaxhRangeContains escape.first escape.last h.context.rip = true

/-- An escape is dispatched to exactly if it is registered. -/
def DispatchesRegistered (p : HostProgram ω) (address : U64) (h : Hosted ω) : Prop :=
  ∀ escape, (∃ called, h.escapeCalled p address = some (escape, called)) ↔
    h.Registered p address escape

/-- The loop looks for the escape that is registered, and the index of the escapes leads to
it. -/
def SeesRegistered (p : HostProgram ω) (address : U64) (h : Hosted ω) : Prop :=
  ∀ escape, h.Registered p address escape →
    (h.shared.engine.fastSlotAt address).1 = none ∧
      ((h.lookState p address).table.escapes.take 255).reverse.find?
        (fun other => other.instructionId == escape.instructionId) = some escape

end Hosted

theorem code_valid (id : EscapeInsnId) : cpueaxhIsEscapeIndexValid id.code = true := by
  cases id <;> decide

/-- The escape that the bytes go to. -/
theorem escapeTaken_eq_some (hi : h.table.Indexed) {bytes : List U8} {escape : EscapeRecord}
    {size : ℕ} : h.escapeTaken address bytes = some (escape, size) ↔
      ∃ id, EscapeEncoding h.context.is64BitCode bytes id size ∧
        (h.table.escapes.take 255).reverse.find? (fun other => other.instructionId == id.code) =
          some escape ∧
        cpueaxhRangeContains escape.first escape.last address = true := by
  have hfind : ∀ id : EscapeInsnId, h.escapeAt id address = some escape ↔
      (h.table.escapes.take 255).reverse.find? (fun other => other.instructionId == id.code) =
          some escape ∧ cpueaxhRangeContains escape.first escape.last address = true := by
    intro id
    unfold Hosted.escapeAt
    rw [hi.lookup_eq (code_valid id), Option.filter_eq_some_iff]
  unfold Hosted.escapeTaken
  constructor
  · intro htaken
    split_ifs at htaken
    cases hclass : classifyEscapeInstruction h.context bytes with
    | none =>
      rw [hclass] at htaken
      cases htaken
    | some found =>
      rw [hclass] at htaken
      simp only [Option.map_eq_some_iff, Prod.mk.injEq] at htaken
      obtain ⟨escape', hescape, rfl, rfl⟩ := htaken
      exact ⟨found.1, (classify_iff_encoding _ _ _ _).mp hclass, (hfind _).mp hescape⟩
  · rintro ⟨id, henc, hescape⟩
    have hpos := henc.length_pos
    rw [if_neg (by omega), (classify_iff_encoding _ _ _ _).mpr henc]
    simp only [(hfind id).mpr hescape, Option.map_some]

/-- What the loop fetches when it looks for an escape. -/
theorem lookState_fetched (hv : h.Valid) {engine : Engine}
    (hslot : h.shared.engine.fastSlotAt h.context.rip = (none, engine)) :
    ((h.setEngine engine).fetch p h.context.rip).1 =
        (if h.context.hasException then [] else h.codeView) ∧
      ((h.setEngine engine).fetch p h.context.rip).2.context.is64BitCode =
        h.context.is64BitCode := by
  have hstays := fastSlotAt_stays h.shared.engine h.context.rip
  rw [hslot] at hstays
  obtain ⟨hbytes, hplace⟩ := fetch_stays (p := p) (h := h.setEngine engine)
    (hstays.ok hv.memory) h.context.rip
  have hwhole : h.shared.engine.Stays
      ((h.setEngine engine).fetch p h.context.rip).2.shared.engine := hstays.trans hplace
  refine ⟨?_, hwhole.is64BitCode_eq⟩
  have hexc : (h.setEngine engine).context.hasException = h.context.hasException := by
    have hfast := fastSlotAt_hasException h.shared.engine h.context.rip
    rw [hslot] at hfast
    exact hfast
  have hmode : (h.setEngine engine).context.is64BitCode = h.context.is64BitCode :=
    hstays.is64BitCode_eq
  rw [hbytes, hexc, hmode]
  congr 1
  exact hstays.fetchView_eq _ _

/-- An escape is called when the bytes that are fetched go to it. -/
theorem escapeCalled_fetched {engine : Engine}
    (hslot : h.shared.engine.fastSlotAt address = (none, engine)) (escape : EscapeRecord) :
    (∃ called, h.escapeCalled p address = some (escape, called)) ↔
      ∃ size, (h.lookState p address).escapeTaken address
        ((h.setEngine engine).fetch p address).1 = some (escape, size) := by
  unfold Hosted.escapeCalled Hosted.lookState
  rw [hslot]
  dsimp only
  cases ((h.setEngine engine).fetch p address).2.escapeTaken address
      ((h.setEngine engine).fetch p address).1 with
  | none => simp
  | some taken => simp [Prod.ext_iff]

/-- No escape is called for an instruction that is executed without a fetch. -/
theorem escapeCalled_fast {slot : InstCacheEntry} {engine : Engine}
    (hslot : h.shared.engine.fastSlotAt address = (some slot, engine)) :
    h.escapeCalled p address = none := by
  unfold Hosted.escapeCalled
  rw [hslot]

/-- The escape that is looked for, and where the index leads. -/
theorem escapeCalled_iff (hv : h.Valid) {engine : Engine}
    (hslot : h.shared.engine.fastSlotAt h.context.rip = (none, engine)) (escape : EscapeRecord) :
    (∃ called, h.escapeCalled p h.context.rip = some (escape, called)) ↔
      h.context.hasException = false ∧
        ∃ id length, EscapeEncoding h.context.is64BitCode h.codeView id length ∧
          ((h.lookState p h.context.rip).table.escapes.take 255).reverse.find?
            (fun other => other.instructionId == id.code) = some escape ∧
          cpueaxhRangeContains escape.first escape.last h.context.rip = true := by
  have hstays := fastSlotAt_stays h.shared.engine h.context.rip
  rw [hslot] at hstays
  have hvalid : (h.lookState p h.context.rip).Valid := by
    have hfetched := @valid_fetch _ p _ (hv.setEngine (hstays.ok hv.memory)) h.context.rip
    unfold Hosted.lookState
    rw [hslot]
    exact hfetched
  obtain ⟨hbytes, hmode⟩ := @lookState_fetched _ p h hv engine hslot
  have hmode' : (h.lookState p h.context.rip).context.is64BitCode = h.context.is64BitCode := by
    unfold Hosted.lookState
    rw [hslot]
    exact hmode
  rw [escapeCalled_fetched hslot, hbytes]
  simp only [escapeTaken_eq_some hvalid.consistent.indexed, hmode']
  cases hexc : h.context.hasException with
  | true =>
    simp only [if_true, Bool.true_eq_false, false_and, iff_false]
    rintro ⟨size, id, henc, -⟩
    have hpos := henc.length_pos
    rw [List.length_nil] at hpos
    omega
  | false =>
    simp only [Bool.false_eq_true, if_false, true_and]
    exact exists_comm

/-- **One instruction.**  The registered escape is dispatched to exactly if it is seen. -/
theorem dispatchesRegistered_iff (hv : h.Valid) :
    h.DispatchesRegistered p h.context.rip ↔ h.SeesRegistered p h.context.rip := by
  unfold Hosted.DispatchesRegistered Hosted.SeesRegistered
  rcases hslot : h.shared.engine.fastSlotAt h.context.rip with ⟨_ | slot, engine⟩
  · simp only [escapeCalled_iff hv hslot, true_and]
    constructor
    · intro hdispatches escape hregistered
      obtain ⟨-, id, length, -, hfind, -⟩ := (hdispatches escape).mpr hregistered
      have hid := List.find?_some (p := fun other : EscapeRecord => other.instructionId == id.code)
        hfind
      rw [beq_iff_eq.mp hid]
      exact hfind
    · intro hsees escape
      constructor
      · rintro ⟨hquiet, id, length, henc, hfind, hrange⟩
        have hid := List.find?_some
          (p := fun other : EscapeRecord => other.instructionId == id.code) hfind
        have hmem := List.mem_reverse.mp (List.mem_of_find?_eq_some hfind)
        exact ⟨hquiet, List.take_subset _ _ hmem, ⟨id, length, henc, beq_iff_eq.mp hid⟩, hrange⟩
      · intro hregistered
        obtain ⟨id, length, henc, hid⟩ := hregistered.ofClass
        have hfind := hsees escape hregistered
        rw [hid] at hfind
        exact ⟨hregistered.quiet, id, length, henc, hfind, hregistered.inRange⟩
  · simp only [escapeCalled_fast hslot, reduceCtorEq, exists_false, false_and, false_iff,
      imp_false]

/-! ## When the escape is seen -/

/-- The loop executes without a fetch what is marked as no escape. -/
theorem fastSlotAt_marked {engine : Engine} {slot : InstCacheEntry}
    (hslot : (engine.fastSlotAt address).1 = some slot) :
    slot.decoded.flags.knownNotEscape = true := by
  unfold Engine.fastSlotAt at hslot
  cases hs : engine.instCache with
  | none =>
    rw [hs] at hslot
    cases hslot
  | some slots =>
    rw [hs] at hslot
    simp only [Engine.modeKey_eq, Option.ite_none_right_eq_some, Option.some.injEq,
      Bool.and_eq_true] at hslot
    obtain ⟨⟨-, hmarked⟩, rfl⟩ := hslot
    exact hmarked

/-- In a table in which every class has one escape at most, and with a cache that is right,
the registered escape is seen. -/
theorem seesRegistered_of_law {isa : InstructionSet}
    (hlaw : (h.lookState p h.context.rip).table.EscapeLaw)
    (hindexed : (h.lookState p h.context.rip).table.Indexed)
    (hc : CodeCoherent isa h.shared.engine) : h.SeesRegistered p h.context.rip := by
  intro escape hregistered
  obtain ⟨id, length, henc, hid⟩ := hregistered.ofClass
  constructor
  · cases hslot : (h.shared.engine.fastSlotAt h.context.rip).1 with
    | none => rfl
    | some slot =>
      -- a marked entry would hold an instruction of no class
      exfalso
      obtain ⟨slots, i, hs, rfl, htag, hversion, hmode⟩ := fastSlotAt_some hslot
      obtain ⟨-, ctx, hctx, hdec⟩ := hc.entry hs hversion hmode
      have hmarked := fastSlotAt_marked hslot
      rw [hdec, htag] at hmarked
      have hnone := isa.not_escape _ _ hmarked
      have hclass := (classify_iff_encoding ctx h.codeView id length).mpr (by
        rw [is64BitCode_eq_of_modeKey hctx]
        exact henc)
      exact absurd (hnone.symm.trans hclass) (by simp)
  · have hfound := (hlaw.found id.code escape).mpr ⟨hregistered.mem, hid⟩
    rw [hindexed.lookup_eq (code_valid id)] at hfound
    rw [hid]
    exact hfound

/-! ## Whole turns -/

namespace Hosted

variable (isa : InstructionSet)

/-- A turn invokes the hooks and the escape that are in the table when their events
occur. -/
structure InvokesCurrent (p : HostProgram ω) (flags : HookFlags) (h : Hosted ω) : Prop where
  pre : h.InvokesDue p flags.needPre .codePre h.context.rip
  escape : (h.preHooks p flags h.context.rip).shared.stopRequested = false →
    (h.preHooks p flags h.context.rip).DispatchesRegistered p h.context.rip
  post : (h.preHooks p flags h.context.rip).shared.stopRequested = false →
    goesOn ((h.preHooks p flags h.context.rip).execute isa p h.context.rip).1 = true →
      ((h.preHooks p flags h.context.rip).execute isa p h.context.rip).2.InvokesDue p
        flags.needPost .codePost h.context.rip

/-- The flags are right for the events of a turn, and the escape is seen. -/
structure KnowsCurrent (p : HostProgram ω) (flags : HookFlags) (h : Hosted ω) : Prop where
  pre : h.KnowsDue p flags.needPre .codePre h.context.rip
  escape : (h.preHooks p flags h.context.rip).shared.stopRequested = false →
    (h.preHooks p flags h.context.rip).SeesRegistered p h.context.rip
  post : (h.preHooks p flags h.context.rip).shared.stopRequested = false →
    goesOn ((h.preHooks p flags h.context.rip).execute isa p h.context.rip).1 = true →
      ((h.preHooks p flags h.context.rip).execute isa p h.context.rip).2.KnowsDue p
        flags.needPost .codePost h.context.rip

/-- The callbacks before the instruction leave `rip`, or request a stop. -/
def LeavesRip (p : HostProgram ω) (flags : HookFlags) (h : Hosted ω) : Prop :=
  (h.preHooks p flags h.context.rip).shared.stopRequested = false →
    (h.preHooks p flags h.context.rip).context.rip = h.context.rip

/-- There is nothing to invoke. -/
def Bare (h : Hosted ω) : Prop := (∀ index, h.table.hooks index = none) ∧ h.table.escapes = []

end Hosted

variable {isa : InstructionSet} {flags : HookFlags}

/-- **One turn** whose callbacks leave `rip`. -/
theorem invokesCurrent_iff (hv : h.Valid) (hleaves : h.LeavesRip p flags) :
    h.InvokesCurrent isa p flags ↔ h.KnowsCurrent isa p flags := by
  have hpre := @invokesDue_iff _ p flags.needPre .codePre h.context.rip h hv.consistent.sound rfl
  have hvalid := @valid_preHooks _ p flags h hv h.context.rip
  have hescape : (h.preHooks p flags h.context.rip).shared.stopRequested = false →
      ((h.preHooks p flags h.context.rip).DispatchesRegistered p h.context.rip ↔
        (h.preHooks p flags h.context.rip).SeesRegistered p h.context.rip) := by
    intro hgoes
    have hiff := @dispatchesRegistered_iff _ p (h.preHooks p flags h.context.rip) hvalid
    rwa [hleaves hgoes] at hiff
  have hexecuted := @valid_execute _ isa p _ hvalid h.context.rip
  have hpost := @invokesDue_iff _ p flags.needPost .codePost h.context.rip _
    hexecuted.consistent.sound rfl
  constructor
  · intro hturn
    constructor
    · exact hpre.mp hturn.pre
    · exact fun hgoes => (hescape hgoes).mp (hturn.escape hgoes)
    · exact fun hgoes hdone => hpost.mp (hturn.post hgoes hdone)
  · intro hturn
    constructor
    · exact hpre.mpr hturn.pre
    · exact fun hgoes => (hescape hgoes).mpr (hturn.escape hgoes)
    · exact fun hgoes hdone => hpost.mpr (hturn.post hgoes hdone)

/-- The loop without hooks is taken when there is nothing to invoke. -/
theorem bare_of_isPlain (hs : h.table.Sound) (hplain : h.isPlain = true) : h.Bare := by
  unfold Hosted.isPlain Hosted.flags HookTable.hasMemoryHook HookTable.installed at hplain
  simp only [Bool.and_eq_true, Bool.not_eq_true', Bool.or_eq_false_iff, List.any_cons,
    List.any_nil, bne_eq_false_iff_eq, beq_iff_eq, List.length_eq_zero_iff, Bool.or_false]
    at hplain
  have hzero : ∀ type, h.table.hookTypeCounts type = 0 := by
    intro type
    cases type <;> tauto
  refine ⟨fun index => ?_, hplain.2⟩
  cases hslot : h.table.hooks index with
  | none => rfl
  | some hook =>
    exact absurd (hzero hook.type) ((hs.hasHookType_iff hook.type).mpr ⟨index, hook, hslot, rfl⟩)

/-- **Changes during a run.**  In a run of `cpueaxh_emu_start` from any state, a turn whose
callbacks leave `rip` invokes the hooks and the escape that are in the table when their
events occur, exactly if the flags that were read before the loop are right for them and
the escape is seen.  The loop without hooks has nothing to invoke. -/
theorem hook_change_law (isa : InstructionSet) (p : HostProgram ω) (compat32 cached : Bool)
    (host : HostMemory) (world : ω) (events : List HostedEvent) (request : Engine.EmuRequest) :
    let start := run (Hosted.apply isa p) (Hosted.opened compat32 cached host world) events
    ∀ n h, start.turnState isa p request n = some h →
      (start.isPlain = true → h.Bare ∧ (h.plainTurn isa).2.Bare) ∧
      (start.isPlain = false → h.LeavesRip p start.flags →
        (h.InvokesCurrent isa p start.flags ↔ h.KnowsCurrent isa p start.flags)) := by
  intro start n h hturn
  have hstart : start.Valid := valid_run isa p compat32 cached host world events
  constructor
  · intro hplain
    have hbare : h.Bare := by
      unfold Hosted.turnState Hosted.turnFrom at hturn
      rw [if_pos hplain] at hturn
      exact loopState_invariant Hosted.Bare (fun _ hbare => hbare) hturn
        (bare_of_isPlain hstart.consistent.sound hplain)
    exact ⟨hbare, hbare⟩
  · intro _ hleaves
    exact invokesCurrent_iff (valid_turnState hstart hturn) hleaves

/-- A callback before instructions that adds a hook behind instructions. -/
def addingProgram : HostProgram Unit where
  code := fun callback _ _ _ =>
    (if callback = 0x100 then [.edit (.hookAdd 2 (some 0x200) 0 0 0)] else [], ())
  escape := fun _ _ context _ _ => ⟨[], cpueaxhErrOk, context, ()⟩
  memory := fun _ => ⟨[], false, ()⟩

/-- A page of `NOP`s of the host, and hooks of the types. -/
def addingEvents (types : List U32) : List HostedEvent :=
  [.call (.memory (.setHostPassthrough (mmProtRead ||| mmProtWrite ||| mmProtExec) true))] ++
    types.map fun type => .call (.edit (.hookAdd type (some (type.setWidth 64 * 0x100)) 0 0 0))

/-- The state in which `cpueaxh_emu_start` is called. -/
def addingStart (types : List U32) : Hosted Unit :=
  run (Hosted.apply sampleSet addingProgram)
    (.opened false true (.initial (fun _ => 0x90) fun _ => true) ()) (addingEvents types)

/-- Start at `0x5000`. -/
def addingRequest : Engine.EmuRequest := ⟨0x5000, 0, 0⟩

/-- The state before the second turn. -/
def addingSecond (types : List U32) : Hosted Unit :=
  (((addingStart types).prepare addingRequest).turn sampleSet addingProgram
    (addingStart types).flags).2

/-- The run comes to its second turn. -/
theorem addingSecond_reached {types : List U32} (hplain : (addingStart types).isPlain = false)
    (hfirst : ((addingStart types).prepare addingRequest).finished addingRequest 0 = false)
    (hnone : (((addingStart types).prepare addingRequest).turn sampleSet addingProgram
      (addingStart types).flags).1 = none)
    (hsecond : (addingSecond types).finished addingRequest 1 = false) :
    (addingStart types).turnState sampleSet addingProgram addingRequest 1 =
      some (addingSecond types) := by
  have hturn : (addingStart types).turnFrom sampleSet addingProgram =
      Hosted.turn sampleSet addingProgram (addingStart types).flags := by
    unfold Hosted.turnFrom
    rw [hplain]
    rfl
  unfold Hosted.turnState
  rw [hturn, loopState_succ hfirst hnone]
  exact loopState_zero hsecond

set_option maxRecDepth 4000 in
/-- With hooks of both types there are flags for both, and the new hook is called as well. -/
theorem hook_change_law_both :
    (addingSecond [1, 2]).InvokesCurrent sampleSet addingProgram (addingStart [1, 2]).flags ↔
      (addingSecond [1, 2]).KnowsCurrent sampleSet addingProgram (addingStart [1, 2]).flags := by
  have hreached : (addingStart [1, 2]).turnState sampleSet addingProgram addingRequest 1 =
      some (addingSecond [1, 2]) :=
    addingSecond_reached (by decide +kernel) (by decide +kernel) (by decide +kernel)
      (by decide +kernel)
  exact (hook_change_law sampleSet addingProgram false true _ () (addingEvents [1, 2]) addingRequest
    1 (addingSecond [1, 2]) hreached).2 (by decide +kernel)
      (fun _ => by decide +kernel)

set_option maxRecDepth 4000 in
/-- The first hook behind instructions is added during the run, and the next instruction
does not call it. -/
theorem added_hook_not_called :
    ¬ ∀ n h, (addingStart [1]).turnState sampleSet addingProgram addingRequest n = some h →
      h.InvokesCurrent sampleSet addingProgram (addingStart [1]).flags := by
  intro hall
  have hreached : (addingStart [1]).turnState sampleSet addingProgram addingRequest 1 =
      some (addingSecond [1]) :=
    addingSecond_reached (by decide +kernel) (by decide +kernel) (by decide +kernel)
      (by decide +kernel)
  have hpost := (hall 1 _ hreached).post (by decide +kernel) (by decide +kernel)
  have honce := hpost.once 1 (newHookEntry 2 .codePost 0x200 0 0 0)
    ⟨by decide +kernel, rfl, fun hmem => absurd hmem (Set.notMem_empty _), fun _ => rfl⟩
    (fun hneed => absurd hneed (by decide +kernel))
  exact absurd honce (by decide +kernel)

end Cpueaxh
