/-
# Dispatching an escape

The callback of an escape works on a copy of the context and may call the engine beside it.
When it returns `CPUEAXH_ERR_OK` the copy is taken over, and when it returns an error the
copy is dropped.  The dispatcher then tells an exception from a completed instruction by the
context alone: one that the callback leaves in the copy comes out behind the instruction, or
not at all, and one that it raises in the engine is lost with what the copy replaces.
-/
import Cpueaxh.HostedEngine
import Cpueaxh.SampleInstructions
import Cpueaxh.EscapeEncoding

namespace Cpueaxh

open Transition

variable {ω : Type}

/-! ## What the dispatch should do -/

/-- What the callback of an escape does when it is called for the instruction. -/
def Hosted.escapeAnswer (p : HostProgram ω) (escape : EscapeRecord) (bytes : List U8)
    (h : Hosted ω) : EscapeAnswer ω :=
  p.escape escape.callback escape.userData (cpueaxhContextOut h.context) bytes h

/-- The context of the engine when the callback returns. -/
def Hosted.called (p : HostProgram ω) (escape : EscapeRecord) (bytes : List U8) (h : Hosted ω) :
    CpuContext :=
  (run Hosted.call h (h.escapeAnswer p escape bytes).calls).context

/-- The callback reports an exception, in the context that it leaves or in the engine. -/
def Hosted.Reports (p : HostProgram ω) (escape : EscapeRecord) (bytes : List U8) (h : Hosted ω)
    (exception : CpuExceptionState) : Prop :=
  exception.code ≠ cpuExceptionNone ∧
    ((h.escapeAnswer p escape bytes).context.exception = exception ∨
      (h.called p escape bytes).exception = exception)

/-- The transfer between the engine and the callback of an escape, for an instruction of the
length.  `ok` is about a callback that returns no error and reports no exception, and
`error` about one that returns an error instead. -/
structure EscapeTransfer (isa : InstructionSet) (p : HostProgram ω) (flags : HookFlags)
    (escape : EscapeRecord) (length : ℕ) (address : U64) (bytes : List U8) (h : Hosted ω) :
    Prop where
  ok : (h.escapeAnswer p escape bytes).error = cpueaxhErrOk →
    (∀ exception, ¬ h.Reports p escape bytes exception) →
      ∃ h', h.tryDispatchEscape p address bytes = some (cpueaxhErrOk, h') ∧
        cpueaxhContextOut h'.context =
          { (h.escapeAnswer p escape bytes).context.normalized with
            rip :=
              if (h.escapeAnswer p escape bytes).context.rip = h.context.rip then
                h.context.rip + BitVec.ofNat 64 length
              else (h.escapeAnswer p escape bytes).context.rip }
  exception : ∀ exception, h.Reports p escape bytes exception →
    (h.afterFetch isa p flags address bytes).1 = some cpueaxhErrException ∧
      (h.afterFetch isa p flags address bytes).2.context.exception = exception ∧
      (h.afterFetch isa p flags address bytes).2.context.rip = h.context.rip
  error : (h.escapeAnswer p escape bytes).error ≠ cpueaxhErrOk →
    (∀ exception, ¬ h.Reports p escape bytes exception) →
      (h.afterFetch isa p flags address bytes).1 = some (h.escapeAnswer p escape bytes).error ∧
        (h.afterFetch isa p flags address bytes).2.context = h.context

/-- The callback gets along with the dispatcher: one that returns `CPUEAXH_ERR_OK` reports
no exception, and one that returns an error leaves the context of the engine alone, unless
it has raised the exception there that it reports, returns the error for it, and leaves
`rip` in the engine alone. -/
structure Hosted.GetsAlong (p : HostProgram ω) (escape : EscapeRecord) (bytes : List U8)
    (h : Hosted ω) : Prop where
  ok : (h.escapeAnswer p escape bytes).error = cpueaxhErrOk →
    ∀ exception, ¬ h.Reports p escape bytes exception
  raised : (h.escapeAnswer p escape bytes).error ≠ cpueaxhErrOk →
    ∀ exception, h.Reports p escape bytes exception →
      (h.escapeAnswer p escape bytes).error = cpueaxhErrException ∧
        (h.called p escape bytes).exception = exception ∧
        (h.called p escape bytes).rip = h.context.rip
  quiet : (h.escapeAnswer p escape bytes).error ≠ cpueaxhErrOk →
    (∀ exception, ¬ h.Reports p escape bytes exception) →
      h.called p escape bytes = h.context

/-! ## The two ends of a callback -/

section Ends

variable {isa : InstructionSet} {p : HostProgram ω} {flags : HookFlags} {escape : EscapeRecord}
variable {id : EscapeInsnId} {length : ℕ} {address : U64} {bytes : List U8} {h : Hosted ω}

/-- An encoding has bytes, and no more of them than there are. -/
theorem EscapeEncoding.length_pos {allowsRex : Bool}
    (henc : EscapeEncoding allowsRex bytes id length) : 0 < length ∧ length ≤ bytes.length := by
  obtain ⟨prefixes, body, rest, rfl, -, hbody, rfl⟩ := henc
  obtain ⟨b, operands, rfl, -⟩ := hbody.head allowsRex
  simp only [List.length_append, List.length_cons]
  omega

/-- An instruction with an escape goes to the callback. -/
theorem tryDispatch_escape (henc : EscapeEncoding h.context.is64BitCode bytes id length)
    (hescape : h.escapeAt id address = some escape) :
    h.tryDispatchEscape p address bytes = some (h.callEscape p escape length bytes) := by
  have hpos := henc.length_pos
  unfold Hosted.tryDispatchEscape
  rw [if_neg (by omega), (classify_iff_encoding _ _ _ _).mpr henc]
  simp only [hescape]

/-- The context that is taken over from the callback, with the instruction pointer that the
dispatcher puts in. -/
def Hosted.takenOver (p : HostProgram ω) (escape : EscapeRecord) (length : ℕ) (bytes : List U8)
    (h : Hosted ω) : CpuContext :=
  let ctx := cpueaxhContextIn (h.called p escape bytes) (h.escapeAnswer p escape bytes).context
  { ctx with
    rip := if ctx.rip = h.context.rip then h.context.rip + BitVec.ofNat 64 length else ctx.rip
    lastInstSize := length }

/-- The state behind the calls of the callback. -/
def Hosted.afterCallback (p : HostProgram ω) (escape : EscapeRecord) (bytes : List U8)
    (h : Hosted ω) : Hosted ω :=
  (run Hosted.call h (h.escapeAnswer p escape bytes).calls).setWorld
    (h.escapeAnswer p escape bytes).world

theorem callEscape_error (herror : (h.escapeAnswer p escape bytes).error ≠ cpueaxhErrOk) :
    h.callEscape p escape length bytes =
      ((h.escapeAnswer p escape bytes).error, h.afterCallback p escape bytes) := by
  unfold Hosted.callEscape
  exact if_pos herror

theorem callEscape_ok (herror : (h.escapeAnswer p escape bytes).error = cpueaxhErrOk) :
    h.callEscape p escape length bytes =
      (if (h.takenOver p escape length bytes).hasException then cpueaxhErrException
        else cpueaxhErrOk,
        (h.afterCallback p escape bytes).setContext (h.takenOver p escape length bytes)) := by
  unfold Hosted.callEscape
  exact if_neg (not_not.mpr herror)

/-- What is taken over has the exception that the callback leaves in the context. -/
theorem takenOver_hasException :
    (h.takenOver p escape length bytes).hasException = true ↔
      (h.escapeAnswer p escape bytes).context.exception.code ≠ cpuExceptionNone := by
  unfold CpuContext.hasException
  rw [bne_iff_ne]
  rfl

/-- The instruction pointer never stays at the instruction. -/
theorem takenOver_rip (hpos : 0 < length) (hbound : length ≤ maxInstFetch) :
    (h.takenOver p escape length bytes).rip ≠ h.context.rip := by
  unfold Hosted.takenOver
  simp only
  split_ifs with hsame
  · intro heq
    unfold maxInstFetch at hbound
    bv_omega
  · exact hsame

/-- The loop ends with an error of the callback. -/
theorem afterFetch_error (henc : EscapeEncoding h.context.is64BitCode bytes id length)
    (hescape : h.escapeAt id address = some escape)
    (herror : (h.escapeAnswer p escape bytes).error ≠ cpueaxhErrOk) :
    h.afterFetch isa p flags address bytes =
      (some (h.escapeAnswer p escape bytes).error, h.afterCallback p escape bytes) := by
  unfold Hosted.afterFetch
  rw [tryDispatch_escape henc hescape, callEscape_error herror]
  exact if_pos herror

/-- The loop does not end with an exception and `rip` at the instruction, when the callback
returns `CPUEAXH_ERR_OK`. -/
theorem afterFetch_ok_rip (henc : EscapeEncoding h.context.is64BitCode bytes id length)
    (hfetched : bytes.length ≤ maxInstFetch) (hescape : h.escapeAt id address = some escape)
    (herror : (h.escapeAnswer p escape bytes).error = cpueaxhErrOk)
    (hexit : (h.afterFetch isa p flags address bytes).1 = some cpueaxhErrException) :
    (h.afterFetch isa p flags address bytes).2.context.rip ≠ h.context.rip := by
  obtain ⟨hpos, hle⟩ := henc.length_pos
  unfold Hosted.afterFetch at hexit ⊢
  rw [tryDispatch_escape henc hescape, callEscape_ok herror] at hexit ⊢
  dsimp only at hexit ⊢
  by_cases hexc : (h.takenOver p escape length bytes).hasException = true
  · rw [if_pos hexc, if_pos (by decide)]
    exact takenOver_rip hpos (hle.trans hfetched)
  · rw [if_neg hexc, if_neg (by decide)] at hexit
    cases hexit

end Ends

/-! ## The law -/

/-- **Escape dispatch.**  For an instruction of a class with an escape whose range contains
its address, the transfer is as it should be if and only if the callback gets along with
the dispatcher. -/
theorem escape_transfer_law (isa : InstructionSet) (p : HostProgram ω) (flags : HookFlags)
    (escape : EscapeRecord) (id : EscapeInsnId) (length : ℕ) (address : U64) (bytes : List U8)
    (h : Hosted ω) (henc : EscapeEncoding h.context.is64BitCode bytes id length)
    (hfetched : bytes.length ≤ maxInstFetch) (hescape : h.escapeAt id address = some escape) :
    EscapeTransfer isa p flags escape length address bytes h ↔ h.GetsAlong p escape bytes := by
  constructor
  · intro htransfer
    refine ⟨fun herror exception hreports => ?_, fun herror exception hreports => ?_,
      fun herror hnone => ?_⟩
    · obtain ⟨hexit, -, hrip⟩ := htransfer.exception exception hreports
      exact afterFetch_ok_rip henc hfetched hescape herror hexit hrip
    · obtain ⟨hexit, hexception, hrip⟩ := htransfer.exception exception hreports
      rw [afterFetch_error henc hescape herror] at hexit hexception hrip
      exact ⟨Option.some.inj hexit, hexception, hrip⟩
    · obtain ⟨-, hcontext⟩ := htransfer.error herror hnone
      rw [afterFetch_error henc hescape herror] at hcontext
      exact hcontext
  · intro halong
    refine ⟨fun herror hnone => ?_, fun exception hreports => ?_, fun herror hnone => ?_⟩
    · have hexc : ¬ (h.takenOver p escape length bytes).hasException = true := by
        rw [takenOver_hasException]
        exact fun hcode => hnone _ ⟨hcode, Or.inl rfl⟩
      refine ⟨(h.afterCallback p escape bytes).setContext (h.takenOver p escape length bytes),
        ?_, rfl⟩
      rw [tryDispatch_escape henc hescape, callEscape_ok herror, if_neg hexc]
    · have herror : (h.escapeAnswer p escape bytes).error ≠ cpueaxhErrOk :=
        fun herror => halong.ok herror exception hreports
      rw [afterFetch_error henc hescape herror]
      obtain ⟨hcode, hexception, hrip⟩ := halong.raised herror exception hreports
      exact ⟨congrArg some hcode, hexception, hrip⟩
    · rw [afterFetch_error henc hescape herror]
      exact ⟨rfl, halong.quiet herror hnone⟩

/-- An engine at `0x1000` with an escape for `INT`. -/
def interruptEngine : Hosted Unit where
  table := run HookTable.edit .empty [.escapeAdd 3 (some 0x100) 0 0 0 true]
  shared :=
    { engine := (openEngine false false (HostMemory.initial (fun _ => 0) fun _ => true)).setContext
        { initCpuContext false with rip := 0x1000 }
      stopRequested := false
      world := () }

/-- A callback that completes `INT 0x2D` with a value in `RAX`, and refuses the other
interrupts with `#UD` in the context and `CPUEAXH_ERR_EXCEPTION`. -/
def interruptHost : HostProgram Unit where
  code := fun _ _ _ _ => ([], ())
  escape := fun _ _ context bytes _ =>
    if bytes[1]? = some 0x2D then
      ⟨[], cpueaxhErrOk, { context with regs := Function.update context.regs 0 1 }, ()⟩
    else
      ⟨[], cpueaxhErrException, { context with exception := ⟨cpuExceptionUd, 0⟩ }, ()⟩
  memory := fun _ => ⟨[], false, ()⟩

/-- The entry of the escape. -/
def interruptEscape : EscapeRecord := ⟨1, 0x100, 0, 0, 0, 3⟩

/-- An `INT 0x2D`. -/
theorem escape_transfer_law_int :
    EscapeTransfer sampleSet interruptHost ⟨false, false⟩ interruptEscape 2 0x1000 [0xCD, 0x2D]
        interruptEngine ↔
      interruptEngine.GetsAlong interruptHost interruptEscape [0xCD, 0x2D] :=
  escape_transfer_law sampleSet interruptHost ⟨false, false⟩ interruptEscape .int 2 0x1000
    [0xCD, 0x2D] interruptEngine
    ⟨[], [0xCD, 0x2D], [], rfl, fun _ hb => absurd hb (by simp), .int 0x2D, rfl⟩ (by decide) rfl

/-- An `INT 0x2E`: the `#UD` that the callback reports is lost. -/
theorem refused_interrupt_lost :
    ¬ EscapeTransfer sampleSet interruptHost ⟨false, false⟩ interruptEscape 2 0x1000 [0xCD, 0x2E]
      interruptEngine := by
  intro h
  have hreports : interruptEngine.Reports interruptHost interruptEscape [0xCD, 0x2E]
      ⟨cpuExceptionUd, 0⟩ := ⟨by decide, Or.inl rfl⟩
  have hexception := (h.exception _ hreports).2.1
  exact absurd hexception (by decide)

end Cpueaxh
