/-
# What the callbacks do to an engine

A call of a callback is an event of the engine, or it only edits the table or requests a
stop.  A dispatch of the code hooks is a number of such calls, so what every call keeps, the
dispatch keeps.  The callbacks for memory accesses leave all of the engine but its hooks
alone, and a fetch with them stays in its place.
-/
import Cpueaxh.HostedEngine
import Cpueaxh.CodeRuns

namespace Cpueaxh

open Transition

variable {ω : Type} {isa : InstructionSet} {p : HostProgram ω} {h : Hosted ω}

/-! ## Calls -/

/-- What a call is for the engine. -/
def Hosted.event (h : Hosted ω) : HostCall → Option EngineEvent
  | .regWrite write => some (.regWrite write)
  | .contextWrite input => some (.contextWrite (input.over h.context))
  | .memory call => some (.memory call)
  | .exceptionRaise code errorCode => some (.exceptionRaise code errorCode)
  | .exceptionClear => some .exceptionClear
  | .edit call =>
    some (.setHooks { h.shared.engine.cpu.hooks with installed := (h.table.edit call).installed })
  | .emuStop => none

theorem call_engine (isa : InstructionSet) (h : Hosted ω) (c : HostCall) :
    (h.call c).shared.engine =
      ((h.event c).map (h.shared.engine.apply isa)).getD h.shared.engine := by
  cases c with
  | exceptionRaise code errorCode =>
    show (if _ then _ else _ : Hosted ω).shared.engine = if _ then _ else _
    split_ifs
    · rfl
    · rfl
  | _ => rfl

/-- The call keeps the mode under a cached key, and the code under the live entries. -/
def Hosted.CallKeeps (isa : InstructionSet) (h : Hosted ω) (c : HostCall) : Prop :=
  ∀ event ∈ h.event c, KeepsMode h.shared.engine event ∧ KeepsCode isa h.shared.engine event

/-- **One call** keeps the live entries current. -/
theorem codeCoherent_call (hc : CodeCoherent isa h.shared.engine) {c : HostCall}
    (hkeeps : h.CallKeeps isa c) : CodeCoherent isa (h.call c).shared.engine := by
  rw [call_engine isa]
  cases hevent : h.event c with
  | none => exact hc
  | some event =>
    obtain ⟨hmode, hcode⟩ := hkeeps event hevent
    exact codeCoherent_apply hc hmode hcode

/-- The table behind calls is the table behind the edits in them. -/
theorem run_call_table (calls : List HostCall) (h : Hosted ω) :
    (run Hosted.call h calls).table =
      run HookTable.edit h.table (calls.filterMap HostCall.hookCall?) := by
  induction calls generalizing h with
  | nil => rfl
  | cons c calls ih =>
    rw [run_cons, ih]
    cases c with
    | exceptionRaise code errorCode =>
      have htable : (h.call (.exceptionRaise code errorCode)).table = h.table := by
        show (if _ then _ else _ : Hosted ω).table = _
        split_ifs
        · rfl
        · rfl
      rw [htable]
      rfl
    | _ => rfl

/-! ## Dispatches -/

/-- The first slots of a dispatch, and what the callbacks share behind them. -/
def Hosted.dispatched (p : HostProgram ω) (type : HookType) (address : U64) (h : Hosted ω)
    (k : ℕ) : Hosted ω :=
  let r := (dispatchLoop p.hostCode type address h.table h.shared k).1
  { table := r.table, shared := r.world }

/-- Every call that a callback makes in the dispatch meets a condition, in the state in
which it is made. -/
def Hosted.DispatchAlong (cond : Hosted ω → HostCall → Prop) (p : HostProgram ω) (type : HookType)
    (address : U64) (h : Hosted ω) : Prop :=
  ∀ (index : HookSlot) (hook : HookEntry) (callback : U64),
    (h.dispatched p type address index).table.hooks index = some hook →
    hook.type = type → hook.codeCallback = some callback →
    cpueaxhRangeContains hook.first hook.last address = true →
    Along Hosted.call cond (h.dispatched p type address index)
      (p.code callback address hook.userData (h.dispatched p type address index)).1

theorem dispatchLoop_succ (host : HostCode ω) (type : HookType) (address : U64)
    (table : HookTable) (world : ω) {k : ℕ} (hk : k < cpueaxhMaxHooks) :
    dispatchLoop host type address table world (k + 1) =
      dispatchSlot host type address (dispatchLoop host type address table world k) ⟨k, hk⟩ := by
  have htake : (List.finRange cpueaxhMaxHooks).take (k + 1) =
      (List.finRange cpueaxhMaxHooks).take k ++ [⟨k, hk⟩] := by
    rw [List.take_succ_eq_append_getElem (by simpa using hk)]
    simp
  unfold dispatchLoop
  rw [htake, List.foldl_append, List.foldl_cons, List.foldl_nil]

/-- A callback of the dispatch makes its calls. -/
theorem callBack_eq (p : HostProgram ω) (address : U64) (index : HookSlot) (hook : HookEntry)
    (callback : U64) (r : HookRun (Shared ω)) :
    (⟨(r.callBack p.hostCode address index hook callback).table,
        (r.callBack p.hostCode address index hook callback).world⟩ : Hosted ω) =
      (run Hosted.call ⟨r.table, r.world⟩
        (p.code callback address hook.userData ⟨r.table, r.world⟩).1).setWorld
          (p.code callback address hook.userData ⟨r.table, r.world⟩).2 := by
  have htable := run_call_table (p.code callback address hook.userData ⟨r.table, r.world⟩).1
    ⟨r.table, r.world⟩
  unfold HookRun.callBack HostProgram.hostCode
  simp only
  rw [← htable]
  rfl

/-- One slot of a dispatch: nothing happens, or the callback of its hook makes its calls. -/
theorem dispatched_succ (p : HostProgram ω) (type : HookType) (address : U64) (h : Hosted ω)
    {k : ℕ} (hk : k < cpueaxhMaxHooks) :
    h.dispatched p type address (k + 1) = h.dispatched p type address k ∨
      ∃ hook callback, (h.dispatched p type address k).table.hooks ⟨k, hk⟩ = some hook ∧
        hook.type = type ∧ hook.codeCallback = some callback ∧
        cpueaxhRangeContains hook.first hook.last address = true ∧
        h.dispatched p type address (k + 1) =
          (run Hosted.call (h.dispatched p type address k)
            (p.code callback address hook.userData (h.dispatched p type address k)).1).setWorld
              (p.code callback address hook.userData (h.dispatched p type address k)).2 := by
  unfold Hosted.dispatched
  rw [dispatchLoop_succ _ _ _ _ _ hk]
  unfold dispatchSlot
  split_ifs with hend
  · exact Or.inl rfl
  · split
    · exact Or.inl rfl
    · rename_i hook hslot
      split_ifs with htype
      · exact Or.inl rfl
      · unfold HookRun.visit
        split
        · exact Or.inl rfl
        · rename_i callback hcode
          split_ifs with hrange
          · refine Or.inr ⟨hook, callback, hslot, not_not.mp htype, hcode, hrange, ?_⟩
            exact callBack_eq p address _ hook callback _
          · exact Or.inl rfl

/-- **Invariant rule.**  What the calls of the callbacks keep holds behind the dispatch. -/
theorem dispatch_invariant {cond : Hosted ω → HostCall → Prop} (inv : Hosted ω → Prop)
    (hworld : ∀ h world, inv h → inv (h.setWorld world))
    (hcall : ∀ h c, inv h → cond h c → inv (h.call c)) {type : HookType} {address : U64}
    (hinv : inv h) (halong : h.DispatchAlong cond p type address) :
    inv (h.dispatch p type address) := by
  have hslots : ∀ k, k ≤ cpueaxhMaxHooks → inv (h.dispatched p type address k) := by
    intro k
    induction k with
    | zero => exact fun _ => hinv
    | succ k ih =>
      intro hk
      have hbefore := ih (by omega)
      rcases dispatched_succ p type address h hk with
        hsame | ⟨hook, callback, hslot, htype, hcode, hrange, hnext⟩
      · rw [hsame]
        exact hbefore
      · rw [hnext]
        apply hworld
        apply run_invariant inv hcall _ _ hbefore
        exact halong ⟨k, hk⟩ hook callback hslot htype hcode hrange
  unfold Hosted.dispatch dispatchCodeHooks
  dsimp only
  split_ifs
  · exact hinv
  · exact hslots cpueaxhMaxHooks (le_refl _)

/-! ## Callbacks for memory accesses -/

/-- An edit of the table changes the hooks of the engine at most. -/
theorem stays_edit (h : Hosted ω) (call : HookCall) :
    Engine.Stays h.shared.engine (h.edit call).shared.engine :=
  ⟨⟨rfl, rfl, rfl, rfl, rfl, rfl⟩, rfl, id, id, rfl⟩

/-- The callbacks for memory accesses leave the engine in its place. -/
theorem stays_notifyMemory (p : HostProgram ω) (h : Hosted ω) :
    Engine.Stays h.shared.engine (h.notifyMemory p).shared.engine := by
  unfold Hosted.notifyMemory
  split_ifs
  · exact run_invariant_always
      (fun h' : Hosted ω => Engine.Stays h.shared.engine h'.shared.engine)
      (fun h' call hstays => hstays.trans (stays_edit h' call)) _ _ (.refl _)
  · exact .refl _

/-- The same behind a change of the engine. -/
theorem stays_notified (p : HostProgram ω) (h : Hosted ω) (engine : Engine) :
    engine.Stays ((h.setEngine engine).notifyMemory p).shared.engine :=
  stays_notifyMemory p (h.setEngine engine)

/-- **A fetch** at any address leaves the engine in its place. -/
theorem fetch_stays (hm : MemoryOk h.shared.engine.cpu.memory) (address : U64) :
    (h.fetch p address).1 =
        (if h.context.hasException then []
          else fetchView h.context.is64BitCode h.context.isUser h.shared.engine.cpu.memory address) ∧
      Engine.Stays h.shared.engine (h.fetch p address).2.shared.engine := by
  have hnotify : ∀ cpu : Cpu,
      Engine.Stays h.shared.engine { h.shared.engine with cpu := cpu } →
        Engine.Stays h.shared.engine
          ((h.setEngine { h.shared.engine with cpu := cpu }).notifyMemory p).shared.engine :=
    fun cpu hstays => hstays.trans (stays_notified p h _)
  unfold Hosted.fetch
  cases hexc : h.context.hasException with
  | true =>
    have hfetch : h.shared.engine.cpu.fetchInstructionBytes address = ([], h.shared.engine.cpu) := by
      unfold Cpu.fetchInstructionBytes
      exact if_pos hexc
    rw [hfetch]
    exact ⟨rfl, hnotify _ (.refl _)⟩
  | false =>
    obtain ⟨cpu, hfetched, heq⟩ := Cpu.fetch_at hm hexc address
    rw [heq]
    exact ⟨rfl, hnotify _ (Engine.stays_fetched hfetched)⟩

/-- The callbacks for memory accesses leave the context alone. -/
theorem notifyMemory_context (p : HostProgram ω) (h : Hosted ω) :
    (h.notifyMemory p).context = h.context := by
  unfold Hosted.notifyMemory
  split_ifs
  · exact @run_invariant_always _ _ Hosted.edit (fun h' => h'.context = h.context)
      (fun _ _ heq => heq) _ _ rfl
  · rfl

/-- A fetch that finds all its bytes raises nothing. -/
theorem fetch_fault (hm : MemoryOk h.shared.engine.cpu.memory) (address : U64)
    (hfault : (h.fetch p address).2.context.hasException = true) :
    h.context.hasException = true ∨
      (fetchView h.context.is64BitCode h.context.isUser h.shared.engine.cpu.memory
        address).length < maxInstFetch := by
  by_cases hexc : h.context.hasException = true
  · exact Or.inl hexc
  · right
    refine lt_of_le_of_ne (codeBytes_length_le maxInstFetch 0) fun hcomplete => hexc ?_
    obtain ⟨cpu, ⟨cache, -, rfl⟩, heq⟩ := Cpu.fetch_at hm (Bool.eq_false_iff.mpr hexc) address
    unfold Hosted.fetch at hfault
    rw [heq] at hfault
    dsimp only at hfault
    have hend := @fetchEnd_complete _ _ _ h.shared.engine.cpu.hooks h.shared.engine.cpu.asked _ _
      hcomplete
    rw [notifyMemory_context] at hfault
    exact (congrArg (fun final : CpuContext × ℕ => final.1.hasException) hend).symm.trans hfault

end Cpueaxh
