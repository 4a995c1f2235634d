/-
# Runs of the engine with callbacks

The state before each turn of `cpueaxh_emu_start`, and what holds in all of them, whatever
the callbacks do: the table of hooks and escapes is consistent, and the memory manager keeps
its invariant.  Nothing is asked of the decode cache here.
-/
import Cpueaxh.Redirect
import Cpueaxh.EscapeTable

namespace Cpueaxh

open Transition

variable {ω : Type}

/-! ## The turns of a loop -/

namespace Hosted

/-- The state before the turn `n` of a loop, when the loop comes to that turn. -/
def loopState (turn : Hosted ω → Option CpueaxhErr × Hosted ω) (request : Engine.EmuRequest) :
    (n executed : ℕ) → Hosted ω → Option (Hosted ω)
  | 0, executed, h => if h.finished request executed then none else some h
  | n + 1, executed, h =>
    if h.finished request executed then none
    else
      match turn h with
      | (none, h) => loopState turn request n (executed + 1) h
      | (some _, _) => none

/-- The state before the turn `n` of `cpueaxh_emu_start`. -/
def turnState (isa : InstructionSet) (p : HostProgram ω) (request : Engine.EmuRequest) (n : ℕ)
    (h : Hosted ω) : Option (Hosted ω) :=
  loopState (h.turnFrom isa p) request n 0 (h.prepare request)

end Hosted

variable {turn : Hosted ω → Option CpueaxhErr × Hosted ω} {request : Engine.EmuRequest}

theorem loopState_zero {executed : ℕ} {h : Hosted ω} (hgo : h.finished request executed = false) :
    Hosted.loopState turn request 0 executed h = some h := by
  unfold Hosted.loopState
  rw [hgo]
  rfl

/-- The turn `n + 1` is the turn `n` behind a turn that does not leave the loop. -/
theorem loopState_succ {n executed : ℕ} {h : Hosted ω}
    (hgo : h.finished request executed = false) (hnone : (turn h).1 = none) :
    Hosted.loopState turn request (n + 1) executed h =
      Hosted.loopState turn request n (executed + 1) (turn h).2 := by
  rw [Hosted.loopState, hgo]
  rcases hturn : turn h with ⟨_ | error, next⟩
  · rfl
  · rw [hturn] at hnone
    cases hnone

/-- The loop takes its turn `n` in that state, and goes on with what the turn leaves. -/
theorem emuLoop_of_loopState {n : ℕ} :
    ∀ {executed : ℕ} {h h' : Hosted ω}, Hosted.loopState turn request n executed h = some h' →
      ∀ fuel, Hosted.emuLoop turn request (n + fuel + 1) executed h =
        match turn h' with
        | (none, h'') => Hosted.emuLoop turn request fuel (executed + n + 1) h''
        | (some error, h'') => some (error, h'') := by
  induction n with
  | zero =>
    intro executed h h' hstate fuel
    unfold Hosted.loopState at hstate
    split_ifs at hstate with hdone
    obtain rfl := Option.some.inj hstate
    rw [Nat.zero_add]
    exact (if_neg hdone).trans rfl
  | succ n ih =>
    intro executed h h' hstate fuel
    unfold Hosted.loopState at hstate
    split_ifs at hstate with hdone
    rw [show n + 1 + fuel + 1 = (n + fuel + 1) + 1 by omega, Hosted.emuLoop, if_neg hdone]
    rcases hturn : turn h with ⟨_ | error, next⟩
    · rw [hturn] at hstate
      have hrest := ih hstate fuel
      rw [show executed + 1 + n + 1 = executed + (n + 1) + 1 by omega] at hrest
      exact hrest
    · rw [hturn] at hstate
      cases hstate

/-- **Invariant rule.**  What every turn keeps holds before every turn. -/
theorem loopState_invariant (inv : Hosted ω → Prop) (hturn : ∀ h, inv h → inv (turn h).2)
    {n : ℕ} : ∀ {executed : ℕ} {h h' : Hosted ω},
      Hosted.loopState turn request n executed h = some h' → inv h → inv h' := by
  induction n with
  | zero =>
    intro executed h h' hstate hinv
    unfold Hosted.loopState at hstate
    split_ifs at hstate
    exact Option.some.inj hstate ▸ hinv
  | succ n ih =>
    intro executed h h' hstate hinv
    unfold Hosted.loopState at hstate
    split_ifs at hstate
    rcases hnext : turn h with ⟨_ | error, next⟩
    · rw [hnext] at hstate
      have hkept := hturn h hinv
      rw [hnext] at hkept
      exact ih hstate hkept
    · rw [hnext] at hstate
      cases hstate

/-! ## What always holds -/

/-- The invariant of an engine with callbacks. -/
structure Hosted.Valid (h : Hosted ω) : Prop where
  consistent : h.table.Consistent
  memory : MemoryOk h.shared.engine.cpu.memory

variable {isa : InstructionSet} {p : HostProgram ω} {flags : HookFlags} {address : U64}
variable {h : Hosted ω}

/-- The same table, with an engine whose memory is all right. -/
theorem Hosted.Valid.setEngine (hv : h.Valid) {engine : Engine}
    (hm : MemoryOk engine.cpu.memory) : (h.setEngine engine).Valid := ⟨hv.consistent, hm⟩

theorem Hosted.Valid.setContext (hv : h.Valid) (ctx : CpuContext) : (h.setContext ctx).Valid :=
  ⟨hv.consistent, hv.memory⟩

/-- Every call keeps the invariant. -/
theorem valid_call (hv : h.Valid) (c : HostCall) : (h.call c).Valid := by
  cases c with
  | memory call => exact ⟨hv.consistent, (memoryCall_ok hv.memory call).1⟩
  | exceptionRaise code errorCode =>
    show (if _ then _ else _ : Hosted ω).Valid
    split_ifs
    · exact hv.setContext _
    · exact hv
  | edit call => exact ⟨hv.consistent.edit call, hv.memory⟩
  | regWrite | contextWrite | exceptionClear | emuStop => exact ⟨hv.consistent, hv.memory⟩

theorem valid_calls (hv : h.Valid) (calls : List HostCall) : (run Hosted.call h calls).Valid :=
  run_invariant_always Hosted.Valid (fun _ c hv => valid_call hv c) calls h hv

/-- A dispatch of the code hooks keeps the invariant. -/
theorem valid_dispatch (hv : h.Valid) (type : HookType) (address : U64) :
    (h.dispatch p type address).Valid := by
  apply @dispatch_invariant ω p h (fun _ _ => True) Hosted.Valid
  · exact fun _ _ hv => ⟨hv.consistent, hv.memory⟩
  · exact fun _ c hv _ => valid_call hv c
  · exact hv
  · exact fun _ _ _ _ _ _ _ => along_of_forall _ (fun _ _ => trivial) _

theorem valid_preHooks (hv : h.Valid) (address : U64) : (h.preHooks p flags address).Valid := by
  unfold Hosted.preHooks
  split_ifs
  · exact valid_dispatch hv _ _
  · exact hv

theorem valid_postHooks (hv : h.Valid) (address : U64) : (h.postHooks p flags address).Valid := by
  unfold Hosted.postHooks
  split_ifs
  · exact valid_dispatch hv _ _
  · exact hv

/-- The callbacks for memory accesses keep the table consistent. -/
theorem consistent_notifyMemory (hc : h.table.Consistent) :
    (h.notifyMemory p).table.Consistent := by
  unfold Hosted.notifyMemory
  split_ifs
  · exact run_invariant_always (fun h' : Hosted ω => h'.table.Consistent)
      (fun _ call hc => hc.edit call) _ _ hc
  · exact hc

theorem valid_notifyMemory (hv : h.Valid) : (h.notifyMemory p).Valid :=
  ⟨consistent_notifyMemory hv.consistent, (stays_notifyMemory p h).ok hv.memory⟩

/-- A fetch keeps the invariant. -/
theorem valid_fetch (hv : h.Valid) (address : U64) : (h.fetch p address).2.Valid := by
  have hkept : ∀ engine : Engine, ((h.setEngine engine).notifyMemory p).table.Consistent :=
    fun engine => consistent_notifyMemory (h := h.setEngine engine) hv.consistent
  exact ⟨hkept _, (@fetch_stays _ p h hv.memory address).2.ok hv.memory⟩

/-- The callback of an escape keeps the invariant. -/
theorem valid_tryDispatch (hv : h.Valid) {bytes : List U8} {error : CpueaxhErr} {h' : Hosted ω}
    (hdispatch : h.tryDispatchEscape p address bytes = some (error, h')) : h'.Valid := by
  cases htaken : h.escapeTaken address bytes with
  | none =>
    rcases tryDispatch_not_taken (p := p) htaken with hnone | ⟨code, hraise⟩
    · rw [hnone] at hdispatch
      cases hdispatch
    · rw [hraise] at hdispatch
      obtain ⟨-, rfl⟩ := Prod.mk.inj (Option.some.inj hdispatch)
      exact hv.setContext _
  | some taken =>
    have hcalled := valid_calls hv (h.escapeAnswer p taken.1 bytes).calls
    have htaken' : h.escapeTaken address bytes = some (taken.1, taken.2) := htaken
    rw [tryDispatch_taken htaken'] at hdispatch
    have hfst := Option.some.inj hdispatch
    by_cases herror : (h.escapeAnswer p taken.1 bytes).error = cpueaxhErrOk
    · rw [callEscape_ok herror] at hfst
      obtain ⟨-, rfl⟩ := Prod.mk.inj hfst
      exact ⟨hcalled.consistent, hcalled.memory⟩
    · rw [callEscape_error herror] at hfst
      obtain ⟨-, rfl⟩ := Prod.mk.inj hfst
      exact ⟨hcalled.consistent, hcalled.memory⟩

/-! ## Turns -/

/-- Finding an instruction keeps the memory, whatever bytes have been fetched. -/
theorem resolve_memory {engine : Engine} (hm : MemoryOk engine.cpu.memory)
    (hexc : engine.cpu.context.hasException = false) (bytes : List U8) :
    MemoryOk (engine.resolve isa bytes).2.cpu.memory := by
  by_cases hnone : bytes = []
  · exact (Engine.finish_resolved (Engine.resolve_resolved isa hm hexc (Or.inl hnone))).1.memory.ok hm
  · have hlen : bytes.length ≠ 0 := by simpa using hnone
    unfold Engine.resolve
    rw [Engine.modeKey_eq]
    dsimp only
    split
    · exact hm
    · rw [if_pos hlen]
      dsimp only
      split_ifs
      · exact hm
      · rw [Engine.commit_cpu]
        exact hm

/-- A step keeps the memory, whatever bytes have been fetched. -/
theorem stepWithPrefetch_memory {engine : Engine} (hm : MemoryOk engine.cpu.memory)
    (bytes : List U8) : MemoryOk (engine.stepWithPrefetch isa bytes).2.cpu.memory := by
  unfold Engine.stepWithPrefetch
  cases hexc : engine.cpu.context.hasException with
  | true => exact hm
  | false =>
    have hfound := @resolve_memory isa engine hm hexc bytes
    simp only [Bool.false_eq_true, if_false]
    rcases hr : engine.resolve isa bytes with ⟨_ | dec, engine₁⟩
    · rw [hr] at hfound
      exact (GuestFrame.setSegmentOverride engine₁.cpu (-1)).memory.ok hfound
    · rw [hr] at hfound
      dsimp only
      split_ifs
      · exact (GuestFrame.dispatchDecoded engine₁.cpu dec _).memory.ok hfound
      · exact (GuestFrame.setSegmentOverride engine₁.cpu (-1)).memory.ok hfound

/-- The part of a turn between the code hooks keeps the invariant. -/
theorem valid_execute (hv : h.Valid) (address : U64) : (h.execute isa p address).2.Valid := by
  have hkeyed := fastSlotAt_stays h.shared.engine address
  unfold Hosted.execute Hosted.afterPre
  rcases hslot : h.shared.engine.fastSlotAt address with ⟨_ | slot, engine⟩
  · rw [hslot] at hkeyed
    have hfetched := @valid_fetch _ p _ (hv.setEngine (hkeyed.ok hv.memory)) address
    dsimp only
    rcases hfetch : (h.setEngine engine).fetch p address with ⟨bytes, h'⟩
    rw [hfetch] at hfetched
    unfold Hosted.afterFetch
    dsimp only
    rcases hdispatch : h'.tryDispatchEscape p address bytes with _ | ⟨error, h''⟩
    · dsimp only
      rw [afterStep_snd]
      exact valid_notifyMemory (hfetched.setEngine (stepWithPrefetch_memory hfetched.memory bytes))
    · have hdispatched := valid_tryDispatch hfetched hdispatch
      dsimp only
      split_ifs
      · exact hdispatched
      · exact hdispatched
  · rw [hslot] at hkeyed
    dsimp only
    rw [afterStep_snd]
    apply valid_notifyMemory
    apply hv.setEngine
    exact (Engine.stepDecoded_frame engine slot).1.memory.ok (hkeyed.ok hv.memory)

/-- **One turn** keeps the invariant. -/
theorem valid_turn (hv : h.Valid) : (h.turn isa p flags).2.Valid := by
  have hpre := @valid_preHooks _ p flags h hv h.context.rip
  unfold Hosted.turn
  dsimp only
  split_ifs
  · exact hpre
  · have hexecuted := @valid_execute _ isa p _ hpre h.context.rip
    rw [afterPre_eq]
    unfold Hosted.withPost
    dsimp only
    split_ifs
    · exact valid_postHooks hexecuted _
    · exact hexecuted

/-- A turn of the loop without hooks keeps the invariant, and the table. -/
theorem valid_plainTurn (hv : h.Valid) : (h.plainTurn isa).2.Valid := by
  refine ⟨hv.consistent, ?_⟩
  have hengine : (h.plainTurn isa).2.shared.engine = (h.shared.engine.step isa).2 :=
    Engine.stepOutcome_snd _
  rw [hengine]
  exact stepWithPrefetch_memory hv.memory []

/-- **One event** keeps the invariant. -/
theorem valid_event (hv : h.Valid) (event : HostedEvent) : (h.apply isa p event).Valid := by
  cases event with
  | call c => exact valid_call hv c
  | start request => exact ⟨hv.consistent, hv.memory⟩
  | plainTurn => exact valid_plainTurn hv
  | turn flags => exact valid_turn hv

/-- Every state that an engine can get to is valid. -/
theorem valid_run (isa : InstructionSet) (p : HostProgram ω) (compat32 cached : Bool)
    (host : HostMemory) (world : ω) (events : List HostedEvent) :
    (run (Hosted.apply isa p) (Hosted.opened compat32 cached host world) events).Valid :=
  run_invariant_always Hosted.Valid (fun _ event hv => valid_event hv event) events _
    ⟨HookTable.empty_consistent, memoryOk_openEngine compat32 cached host⟩

/-- Before every turn of `cpueaxh_emu_start` the state is valid. -/
theorem valid_turnState (hv : h.Valid) {n : ℕ} {h' : Hosted ω}
    (hturn : h.turnState isa p request n = some h') : h'.Valid := by
  have hkept : ∀ s : Hosted ω, s.Valid → (h.turnFrom isa p s).2.Valid := by
    intro s hs
    unfold Hosted.turnFrom
    split_ifs
    · exact valid_plainTurn hs
    · exact valid_turn hs
  exact loopState_invariant Hosted.Valid hkept hturn ⟨hv.consistent, hv.memory⟩

end Cpueaxh
