/-
# Instructions that leave the guarded flags alone

Every instruction of the control flow but `IRET` leaves `IOPL` and `IF` as they were, whether
it completes or faults.  The programs that keep them are closed under `bind`; a far transfer
is read off its outcome.
-/
import Cpueaxh.FlagImage

namespace Cpueaxh

/-! ## Programs -/

variable {cpu : Cpu}

/-- The advance of `rip` leaves the flags alone. -/
theorem runCode_rflags (cpu : Cpu) (dec : DecodedInst) (ripPre : U64) :
    (cpu.runCode dec ripPre).context.rflags = (dec.code.1.run handlerOp cpu).2.context.rflags := by
  unfold Cpu.runCode
  simp only
  split_ifs <;> rfl

theorem runCode_hasException (cpu : Cpu) (dec : DecodedInst) (ripPre : U64) :
    (cpu.runCode dec ripPre).context.hasException =
      (dec.code.1.run handlerOp cpu).2.context.hasException := by
  unfold Cpu.runCode
  simp only
  split_ifs <;> rfl

theorem failed_rflags {c : Cpu} (h : cpu.Failed c) : c.context.rflags = cpu.context.rflags := by
  obtain ⟨_, _, _, rfl⟩ := h.same
  rfl

namespace KeepsGuarded

theorem pure {α : Type} (a : α) : KeepsGuarded (Pure.pure a : CpuProgram α) := fun _ _ => rfl

theorem bind {α β : Type} {p : CpuProgram α} {f : α → CpuProgram β} (hp : KeepsGuarded p)
    (hf : ∀ a, KeepsGuarded (f a)) : KeepsGuarded (p >>= f) := by
  intro cpu hm
  rw [Program.run_bind]
  exact (hf _ _ ((GuestFrame.cpuProgram p cpu).memory.ok hm)).trans (hp cpu hm)

/-- A change of the context that leaves the flags alone. -/
theorem modify {f : CpuContext → CpuContext} (h : ∀ ctx, (f ctx).rflags = ctx.rflags) :
    KeepsGuarded (modifyContext f) :=
  fun cpu _ => congrArg (· &&& guardedFlags) (h cpu.context)

theorem context : KeepsGuarded getContext := fun _ _ => rfl

/-- A check for an exception. -/
theorem checked {p : CpuProgram Unit} (h : KeepsGuarded p) :
    KeepsGuarded (do if ← cpuHasException then return () else p) := by
  refine bind (fun _ _ => rfl) fun pending => ?_
  cases pending
  · exact h
  · exact pure ()

theorem raiseGp (errorCode : U32) : KeepsGuarded (raiseGp errorCode) := by
  intro cpu _
  show (cpu.context.raiseException _ _).rflags &&& _ = _
  unfold CpuContext.raiseException
  split_ifs <;> rfl

theorem validateCodeOffset (value : U64) (operandSize : ℕ) :
    KeepsGuarded (cpuValidateCodeOffset value operandSize) := by
  refine context.bind fun ctx => ?_
  split_ifs
  · exact (raiseGp 0).bind fun _ => pure false
  · exact pure true

theorem assignRip (value : U64) (operandSize : ℕ) :
    KeepsGuarded (cpuAssignRipChecked value operandSize) := by
  refine (validateCodeOffset value operandSize).bind fun valid => ?_
  split_ifs
  · exact (modify fun _ => rfl).bind fun _ => pure true
  · exact pure false

theorem pushValue {size : ℕ} (hsize : size = 2 ∨ size = 4 ∨ size = 8) (value : U64) :
    KeepsGuarded (pushValue size value) := by
  intro cpu hm
  rw [(run_viewOp _ hm).2.context_eq]
  rcases pushValue_allOrNothing hm.manager hsize value with ⟨-, ptrs, -, hafter⟩ | ⟨-, hfailed⟩
  · rw [hafter]
    rfl
  · rw [failed_rflags hfailed]

theorem popValue {size : ℕ} (hsize : size = 2 ∨ size = 4 ∨ size = 8) :
    KeepsGuarded (popValue size) := by
  intro cpu hm
  rw [(run_viewOp _ hm).2.context_eq]
  rcases popValue_allOrNothing hm.manager hsize with ⟨-, hafter, -⟩ | ⟨-, hfailed⟩
  · rw [hafter]
    rfl
  · rw [failed_rflags hfailed]

/-! ## Near branches -/

theorem jump (pre : FlowPrefix) (form : BranchForm) {target : CpuProgram U64}
    (h : KeepsGuarded target) : KeepsGuarded (executeJump pre form target) := by
  unfold executeJump recordPrefix
  refine bind (modify fun _ => rfl) fun _ => bind context fun ctx => bind h fun value => ?_
  exact checked (bind (assignRip _ _) fun _ => pure ())

theorem jcc (pre : FlowPrefix) (near : Bool) (cond : U8) (disp : U32) :
    KeepsGuarded (executeJcc pre near cond disp) :=
  jump pre .conditional (context.bind fun _ => pure _)

theorem operandBytes_size (operandSize : ℕ) : operandBytes operandSize = 2 ∨
    operandBytes operandSize = 4 ∨ operandBytes operandSize = 8 := by
  unfold operandBytes
  split_ifs <;> simp

theorem call (pre : FlowPrefix) (form : BranchForm) {target : CpuProgram U64}
    (h : KeepsGuarded target) : KeepsGuarded (executeCall pre form target) := by
  unfold executeCall recordPrefix callNear
  refine bind (modify fun _ => rfl) fun _ => bind context fun ctx => bind h fun value => ?_
  refine checked (bind (validateCodeOffset _ _) fun valid => ?_)
  split_ifs
  · exact bind (pushValue (operandBytes_size _) _) fun _ => checked (modify fun _ => rfl)
  · exact pure ()

theorem nearRetSize_bytes (dec : DecodedInst) : dec.nearRetSize / 8 = 2 ∨
    dec.nearRetSize / 8 = 4 ∨ dec.nearRetSize / 8 = 8 := by
  unfold DecodedInst.nearRetSize
  split_ifs <;> simp

theorem retNoImm (dec : DecodedInst) : KeepsGuarded (cpuExecutorInlineRetNoImm dec) := by
  unfold cpuExecutorInlineRetNoImm
  refine bind (modify fun _ => rfl) fun _ => bind (popValue (nearRetSize_bytes dec)) fun _ => ?_
  exact checked (bind (assignRip _ _) fun _ => pure ())

theorem retImm16 (dec : DecodedInst) : KeepsGuarded (cpuExecutorInlineRetImm16 dec) := by
  unfold cpuExecutorInlineRetImm16
  refine bind (modify fun _ => rfl) fun _ => bind (popValue (nearRetSize_bytes dec)) fun _ => ?_
  refine checked (bind (assignRip _ _) fun assigned => ?_)
  split_ifs
  · exact pure ()
  · exact modify fun _ => rfl

theorem inlineJcc (dec : DecodedInst) (size : ℕ) (disp : U64) :
    KeepsGuarded (inlineJcc dec size disp) :=
  context.bind fun _ => (assignRip _ _).bind fun _ => modify fun _ => rfl

end KeepsGuarded

/-! ## Far transfers -/

theorem pushedReturn_rflags {size : ℕ} {returnRip : U64} {after : Cpu}
    (h : cpu.pushedReturn size returnRip = .ok after) :
    after.context.rflags = cpu.context.rflags := by
  obtain ⟨_, _, -, -, rfl⟩ := pushedTwo_ok h
  rfl

/-- **A far transfer that is no `IRET`** leaves the flags alone. -/
theorem farTransfer_rflags (hm : MemoryOk cpu.memory) (hexc : cpu.context.hasException = false)
    {t : FarTransfer} (hiret : ∀ operandSize addressSize, t ≠ .iret operandSize addressSize) :
    (farTransfer t cpu).context.rflags = cpu.context.rflags := by
  cases houtcome : t.outcome cpu with
  | error c =>
    obtain ⟨hfailed, hcontext, -⟩ := farTransfer_error hexc hm houtcome
    rw [hcontext, failed_rflags hfailed]
  | ok c =>
    rw [(farTransfer_ok hexc hm houtcome).2.1]
    cases t with
    | jmpFar selector offset operandSize =>
      obtain ⟨_, -, -, rfl⟩ := jmpFarOutcome_ok.mp houtcome
      rfl
    | callFarMem memAddr operandSize returnRip =>
      obtain ⟨_, _, _, after, -, -, -, hpushed, rfl⟩ := callFarMemOutcome_ok.mp houtcome
      exact (pushedReturn_rflags hpushed :)
    | callFarPtr selector offset operandSize returnRip =>
      obtain ⟨_, after, -, -, hpushed, rfl⟩ := callFarPtrOutcome_ok.mp houtcome
      exact (pushedReturn_rflags hpushed :)
    | ret operandSize addressSize immediate =>
      obtain ⟨_, -, rfl⟩ := retOutcome_ok.mp houtcome
      rfl
    | iret operandSize addressSize => exact absurd rfl (hiret operandSize addressSize)

/-! ## Instructions -/

theorem restored_guarded : Restored fun ctx => ctx.rflags &&& guardedFlags :=
  ⟨fun _ _ _ => rfl, fun _ _ => rfl, fun _ _ => rfl, fun _ _ => rfl, fun _ _ => rfl⟩

/-- A far jump through memory. -/
theorem jmpFarMem_rflags (hm : MemoryOk cpu.memory) (hexc : cpu.context.hasException = false)
    (pre : FlowPrefix) (address : U64) :
    ((executeJmpFarMem pre address).run handlerOp cpu).2.context.rflags = cpu.context.rflags := by
  have hmem : MemoryOk ((recordPrefix pre).run cpuOp cpu).2.memory := hm
  have hclear : ((recordPrefix pre).run cpuOp cpu).2.context.hasException = false := hexc
  have hflags : ((recordPrefix pre).run cpuOp cpu).2.context.rflags = cpu.context.rflags := rfl
  unfold executeJmpFarMem
  rw [Program.run_bind, run_cpuPart, Program.run_bind, run_cpuPart]
  generalize ((recordPrefix pre).run cpuOp cpu).2 = q at *
  obtain ⟨hvalue, hstate⟩ := run_viewOp (readFarPointer pre address) hmem
  rw [run_readFarPointer hmem hclear pre address] at hvalue hstate
  have hclean := clean_farPointer hclear address
    (farPointerSize q.context pre.rexW pre.operandSizeOverride)
  rw [hvalue]
  cases hpointer : q.farPointer address
      (farPointerSize q.context pre.rexW pre.operandSizeOverride) with
  | error c =>
    rw [hpointer] at hclean hstate
    cases hclean with
    | error hfailed =>
      show ((readFarPointer pre address).run cpuOp q).2.context.rflags = _
      rw [hstate.context_eq]
      exact (failed_rflags hfailed).trans hflags
  | ok pointer =>
    rw [hpointer] at hstate
    have hcontext : ((readFarPointer pre address).run cpuOp q).2.context = q.context :=
      hstate.context_eq
    rw [← hflags, ← hcontext]
    exact farTransfer_rflags hstate.ok (hcontext ▸ hclear) fun _ _ h => nomatch h

/-- The other far transfers. -/
theorem executeFar_rflags (hm : MemoryOk cpu.memory) (hexc : cpu.context.hasException = false)
    (pre : FlowPrefix) {decode : CpuContext → Option FarTransfer}
    (hiret : ∀ ctx t, decode ctx = some t →
      ∀ operandSize addressSize, t ≠ .iret operandSize addressSize) :
    ((executeFar pre decode).run handlerOp cpu).2.context.rflags = cpu.context.rflags := by
  rw [run_executeFar]
  have hmem : MemoryOk ((recordPrefix pre).run cpuOp cpu).2.memory := hm
  have hclear : ((recordPrefix pre).run cpuOp cpu).2.context.hasException = false := hexc
  have hflags : ((recordPrefix pre).run cpuOp cpu).2.context.rflags = cpu.context.rflags := rfl
  generalize ((recordPrefix pre).run cpuOp cpu).2 = q at *
  cases hdecode : decode q.context with
  | none =>
    rw [← hflags]
    show (q.context.raiseException _ _).rflags = _
    rw [raiseException_of_none hclear]
  | some t => exact (farTransfer_rflags hmem hclear (hiret _ t hdecode)).trans hflags

theorem transfer_not_iret {inst : FlowInst} (hiret : inst ≠ .iret) {pre : FlowPrefix}
    {ctx : CpuContext} {t : FarTransfer} (h : inst.transfer pre ctx = some t)
    (operandSize addressSize : ℕ) : t ≠ .iret operandSize addressSize := by
  rintro rfl
  cases inst with
  | jmpFarPtr selector offset =>
    obtain ⟨size, -, heq⟩ := Option.map_eq_some_iff.mp h
    cases heq
  | callFarPtr selector offset =>
    obtain ⟨size, -, heq⟩ := Option.map_eq_some_iff.mp h
    cases heq
  | iret => exact hiret rfl
  | sequential | jump | jcc | call | ret | jmpFarMem | callFarMem | retFar => cases h

/-- **The code of an instruction** of the control flow that is no `IRET`. -/
theorem decoded_keepsGuarded {event : FlowEvent} (hkeeps : event.inst.KeepsGuarded)
    (hiret : event.inst ≠ .iret) (ctx : CpuContext) (hm : MemoryOk cpu.memory)
    (hexc : cpu.context.hasException = false) :
    ((event.decoded ctx).code.1.run handlerOp cpu).2.context.rflags &&& guardedFlags =
      cpu.context.rflags &&& guardedFlags := by
  have hpart : ∀ {p : CpuProgram Unit}, (event.decoded ctx).code.1 = cpuPart p → KeepsGuarded p →
      ((event.decoded ctx).code.1.run handlerOp cpu).2.context.rflags &&& guardedFlags =
        cpu.context.rflags &&& guardedFlags := by
    intro p hcode hp
    rw [hcode, run_cpuPart]
    exact hp cpu hm
  have hfar : (event.decoded ctx).code.1 = (executeFar event.pre fun ctx =>
        event.inst.transfer event.pre ctx) →
      ((event.decoded ctx).code.1.run handlerOp cpu).2.context.rflags &&& guardedFlags =
        cpu.context.rflags &&& guardedFlags := by
    intro hcode
    rw [hcode, executeFar_rflags hm hexc event.pre fun _ _ h => transfer_not_iret hiret h]
  obtain ⟨dec, pre, inst⟩ := event
  cases inst with
  | sequential part => exact hpart rfl (.bind (.modify fun _ => rfl) fun _ => hkeeps)
  | jump form target => exact hpart rfl (.jump pre form hkeeps)
  | jcc near cond disp =>
    by_cases hinline : (ctx.cs.descriptor.longMode && pre.size == if near then 6 else 2) = true
    · obtain ⟨size, disp, hcode⟩ : ∃ size disp', (FlowEvent.decoded ⟨dec, pre, .jcc near cond disp⟩
          ctx).code.1 = cpuPart (inlineJcc (FlowEvent.decoded ⟨dec, pre, .jcc near cond disp⟩ ctx)
            size disp') := by
        unfold FlowEvent.decoded
        simp only
        rw [if_pos hinline]
        cases near with
        | false => exact ⟨_, _, rfl⟩
        | true => exact ⟨_, _, rfl⟩
      exact hpart hcode (.inlineJcc _ _ _)
    · refine hpart ?_ (.jcc pre near cond disp)
      unfold FlowEvent.decoded
      simp only
      rw [if_neg hinline]
      rfl
  | call form target => exact hpart rfl (.call pre form hkeeps)
  | ret immediate =>
    cases immediate with
    | none => exact hpart rfl (.retNoImm _)
    | some immediate => exact hpart rfl (.retImm16 _)
  | jmpFarMem address =>
    have hcode : (FlowEvent.decoded ⟨dec, pre, .jmpFarMem address⟩ ctx).code.1 =
        executeJmpFarMem pre address := rfl
    rw [hcode, jmpFarMem_rflags hm hexc pre address]
  | jmpFarPtr | callFarMem | callFarPtr | retFar => exact hfar rfl
  | iret => exact absurd rfl hiret

/-- An instruction that is not rolled back is no branch, and keeps the guarded flags. -/
theorem decoded_guardedStays {event : FlowEvent} (hkeeps : event.inst.KeepsGuarded)
    (ctx : CpuContext) (ripPre : U64)
    (hflags : (event.decoded ctx).flags.noFault = true ∨
      (event.decoded ctx).flags.partialProgress = true) (hm : MemoryOk cpu.memory) :
    (cpu.runCode (event.decoded ctx) ripPre).context.rflags &&& guardedFlags =
      cpu.context.rflags &&& guardedFlags := by
  obtain ⟨dec, pre, inst⟩ := event
  cases inst with
  | sequential part =>
    have hcode : (FlowEvent.decoded ⟨dec, pre, .sequential part⟩ ctx).code.1 = cpuPart (do
        modifyContext fun ctx => { ctx with lastInstSize := pre.size }
        part.code) := rfl
    have hprogram : KeepsGuarded (do
        modifyContext fun ctx => { ctx with lastInstSize := pre.size }
        part.code) := .bind (.modify fun _ => rfl) fun _ => hkeeps
    rw [runCode_rflags, hcode, run_cpuPart]
    exact hprogram cpu hm
  | jcc near cond disp =>
    simp only [FlowEvent.decoded] at hflags
    split_ifs at hflags <;> simp [DecodedInst.inlined, DecodedInst.withHandler] at hflags
  | jump | call | ret | jmpFarMem | jmpFarPtr | callFarMem | callFarPtr | retFar | iret =>
    simp [FlowEvent.decoded, DecodedInst.inlined, DecodedInst.withHandler] at hflags

end Cpueaxh
