/-
# Legal descriptors

What the architecture asks of a descriptor before it goes into a segment register, and
when the far transfers and the segment loads of the code ask the same.  The code does not
look at the S bit of an entry, and looks at the L and D bits of a code segment in long
mode only, and never in `call_far_ptr`.
-/
import Cpueaxh.SegmentLoad

namespace Cpueaxh

open HostMemory

/-! ## The architecture -/

/-- The S bit of a table entry: a code or data descriptor, not one of the system. -/
def isCodeOrData (high : U32) : Bool := (high >>> 12) &&& 1 == 1

/-- A load of a segment register from a descriptor table. -/
inductive SegmentLoad where
  | transfer (t : FarTransfer)
  | register (index : Option SegmentRegisterIndex) (selector : U16)

/-- The transfer returns to the new code segment. -/
def FarTransfer.isReturn : FarTransfer → Bool
  | .ret _ _ _ => true
  | .iret _ _ => true
  | _ => false

namespace SegmentLoad

/-- The descriptor is of the kind that the register takes. -/
def kindOk (load : SegmentLoad) (low high : U32) : Bool :=
  let desc := decodeDescriptor low high
  isCodeOrData high &&
    match load with
    | .transfer _ => isCodeSegment desc.type && !(desc.longMode && desc.db)
    | .register (some .ss) _ => isWritableDataSegment desc.type
    | .register _ _ => isDataSegment desc.type || isReadableCodeSegment desc.type

/-- The descriptor may be loaded, as far as its own fields go. -/
def Legal (load : SegmentLoad) (low high : U32) : Prop :=
  load.kindOk low high = true ∧ (decodeDescriptor low high).present = true

/-- The levels of the selector, the descriptor and the CPU go together. -/
def levelOk (load : SegmentLoad) (cpl rpl : U8) (desc : SegmentDescriptor) : Bool :=
  match load with
  | .transfer t =>
    if t.isReturn then
      decide (cpl ≤ rpl) &&
        if isConformingCodeSegment desc.type then decide (desc.dpl ≤ rpl) else desc.dpl == rpl
    else if isConformingCodeSegment desc.type then decide (desc.dpl ≤ cpl)
    else desc.dpl == cpl && decide (rpl ≤ cpl)
  | .register (some .ss) _ => rpl == cpl && desc.dpl == cpl
  | .register _ _ =>
    isConformingCodeSegment desc.type || (decide (rpl ≤ desc.dpl) && decide (cpl ≤ desc.dpl))

/-- The fault of the architecture for a descriptor: of its kind or of the levels, and then
of a segment that is not present. -/
def archFault (load : SegmentLoad) (cpl : U8) (selector : U16) (low high : U32) :
    Option RaisedFault :=
  if !load.kindOk low high then some .gp
  else if !load.levelOk cpl (selectorRpl selector) (decodeDescriptor low high) then some .gp
  else if (decodeDescriptor low high).present then none
  else match load with
    | .register (some .ss) _ => some .ss
    | _ => some .np

/-! ## The code -/

/-- The CPU after a load. -/
def after (load : SegmentLoad) (cpu : Cpu) : Cpu :=
  match load with
  | .transfer t => farTransfer t cpu
  | .register index selector => ((loadSegmentRegister index selector).run cpuOp cpu).2

/-- A load of a null selector, which some registers take without a descriptor. -/
def isNull : SegmentLoad → Bool
  | .transfer _ => false
  | .register _ selector => isNullSelector selector

/-- The descriptor that a load has written. -/
def loadedDescriptor (load : SegmentLoad) (ctx : CpuContext) : SegmentDescriptor :=
  match load with
  | .transfer _ => ctx.cs.descriptor
  | .register none _ => .zero
  | .register (some index) _ =>
    match index with
    | .es => ctx.es.descriptor
    | .cs => ctx.cs.descriptor
    | .ss => ctx.ss.descriptor
    | .ds => ctx.ds.descriptor
    | .fs => ctx.fs.descriptor
    | .gs => ctx.gs.descriptor

/-- The selector that a load reads. -/
def selector (load : SegmentLoad) (cpu : Cpu) : Except Cpu U16 :=
  match load with
  | .transfer (.jmpFar selector _ _) => .ok selector
  | .transfer (.callFarMem memAddr operandSize _) => do
    let (_, selector) ← cpu.farPointer memAddr operandSize
    return selector
  | .transfer (.callFarPtr selector _ _ _) => .ok selector
  | .transfer (.ret operandSize _ _) => do
    let (values, _) ← cpu.peeked (operandBytes operandSize) 2
    return (values.getD 1 0).setWidth 16
  | .transfer (.iret operandSize _) => do
    let (values, _) ← cpu.peeked (operandBytes operandSize) (if operandSize = 64 then 5 else 3)
    return (values.getD 1 0).setWidth 16
  | .register none _ => .error (cpu.raised .gp 0)
  | .register (some .cs) _ => .error (cpu.raised .ud 0)
  | .register _ selector => .ok selector

/-- The selector of a load and the words of its table entry. -/
def entry (load : SegmentLoad) (cpu : Cpu) : Except Cpu (U16 × U32 × U32) := do
  let selector ← load.selector cpu
  if isNullSelector selector then .error (cpu.raised .gp 0)
  else do
    let (low, high) ← cpu.descriptorWords selector
    return (selector, low, high)

/-- The checks of the code on the descriptor. -/
def checks (load : SegmentLoad) (cpu : Cpu) (selector : U16) (desc : SegmentDescriptor) :
    Option RaisedFault :=
  match load with
  | .transfer (.jmpFar _ _ _) => cpu.farChecks selector true desc
  | .transfer (.callFarMem _ _ _) => cpu.farChecks selector true desc
  | .transfer (.callFarPtr _ _ _ _) => cpu.farChecks selector false desc
  | .transfer (.ret _ _ _) => cpu.retChecks selector desc
  | .transfer (.iret _ _) => cpu.retChecks selector desc
  | .register (some .ss) _ => cpu.stackChecks selector desc
  | .register _ _ => cpu.dataChecks selector desc

/-- The outcome of a load. -/
def outcome (load : SegmentLoad) (cpu : Cpu) : Except Cpu Cpu :=
  match load with
  | .transfer t => t.outcome cpu
  | .register index selector => cpu.segmentOutcome index selector

/-- What the code overlooks: an entry with S = 0, or a code segment with L = 1 and D = 1,
for which its other checks do not raise the general protection fault; and the return to an
outer level, which it refuses before it sees that the segment is not present. -/
def Overlooks (load : SegmentLoad) (cpu : Cpu) (selector : U16) (low high : U32) : Prop :=
  let desc := decodeDescriptor low high
  match load with
  | .transfer t =>
    ((isCodeOrData high = false ∨ (desc.longMode = true ∧ desc.db = true)) ∧
        load.checks cpu selector desc ≠ some .gp) ∨
      (t.isReturn = true ∧ cpu.context.cpl < selectorRpl selector ∧ desc.present = false ∧
        load.kindOk low high = true ∧
        load.levelOk cpu.context.cpl (selectorRpl selector) desc = true)
  | .register _ _ => isCodeOrData high = false ∧ load.checks cpu selector desc ≠ some .gp

end SegmentLoad

/-! ## The law -/

/-- A load that completes has loaded a legal descriptor, and every descriptor that is not
legal raises the fault of the architecture and changes nothing else. -/
structure LegalLoad (load : SegmentLoad) (cpu : Cpu) : Prop where
  loaded : (load.after cpu).context.hasException = false → load.isNull = false →
    ∃ selector low high, load.entry cpu = .ok (selector, low, high) ∧ load.Legal low high ∧
      load.loadedDescriptor (load.after cpu).context = decodeDescriptor low high
  refused : ∀ selector low high, load.entry cpu = .ok (selector, low, high) →
    ¬ load.Legal low high →
      ∃ fault, load.archFault cpu.context.cpl selector low high = some fault ∧
        (load.after cpu).context =
          { cpu.context with exception := ⟨fault.code, selectorError selector⟩ } ∧
        (load.after cpu).memory.host = cpu.memory.host

/-! ## The checks and the architecture -/

section Checks

variable {load : SegmentLoad} {cpu : Cpu} {selector : U16} {low high : U32}

theorem not_data_of_conforming {type : U8} (h : isConformingCodeSegment type = true) :
    isDataSegment type = false := by
  simp only [isConformingCodeSegment, isCodeSegment, isDataSegment, Bool.and_eq_true,
    bne_iff_ne, ne_eq] at h ⊢
  simpa using h.1

/-- On a descriptor of the right kind the code raises what the architecture raises, but for
returns to an outer level. -/
theorem checks_of_kindOk (hkind : load.kindOk low high = true)
    (hlevel : ∀ t, load = .transfer t → t.isReturn = true →
      selectorRpl selector ≤ cpu.context.cpl) :
    load.checks cpu selector (decodeDescriptor low high) =
      load.archFault cpu.context.cpl selector low high := by
  unfold SegmentLoad.archFault
  rw [hkind]
  generalize hdesc : decodeDescriptor low high = desc
  simp only [SegmentLoad.kindOk, hdesc] at hkind
  -- a far transfer and a load of a register have checks of their own behind that of the kind
  cases load with
  | transfer t =>
    simp only [Bool.and_eq_true, Bool.not_eq_true'] at hkind
    obtain ⟨-, hcode, hmodes⟩ := hkind
    have hfault : ∀ checkModes, cpu.codeFault checkModes desc = none := by
      intro checkModes
      unfold Cpu.codeFault
      rw [Bool.and_assoc, hmodes]
      simp [hcode]
    have hfar : ∀ checkModes t, t.isReturn = false → cpu.farChecks selector checkModes desc =
        if !(SegmentLoad.transfer t).levelOk cpu.context.cpl (selectorRpl selector) desc then
          some .gp
        else if desc.present then none else some .np := by
      intro checkModes t ht
      simp only [Cpu.farChecks, hfault, Option.none_or, Cpu.farPrivilegeFault,
        SegmentLoad.levelOk, ht, Bool.false_eq_true, if_false]
      cases desc.present <;> rfl
    have hret : ∀ t : FarTransfer, t.isReturn = true →
        selectorRpl selector ≤ cpu.context.cpl → cpu.retChecks selector desc =
        if !(SegmentLoad.transfer t).levelOk cpu.context.cpl (selectorRpl selector) desc then
          some .gp
        else if desc.present then none else some .np := by
      intro t ht hrpl
      simp only [Cpu.retChecks, hfault, Option.none_or, Cpu.retPrivilegeFault,
        SegmentLoad.levelOk, ht, if_true]
      -- a return to the same level compares with it, one to an outer level does not
      by_cases heq : selectorRpl selector = cpu.context.cpl
      · rw [heq]
        cases desc.present <;> simp
      · have hlow : ¬ cpu.context.cpl ≤ selectorRpl selector := fun hle =>
          heq (BitVec.le_antisymm hrpl hle)
        simp [heq, hlow]
    cases t with
    | jmpFar s offset operandSize => exact hfar _ _ rfl
    | callFarMem memAddr operandSize returnRip => exact hfar _ _ rfl
    | callFarPtr s offset operandSize returnRip => exact hfar _ _ rfl
    | ret operandSize addressSize immediate => exact hret _ rfl (hlevel _ rfl rfl)
    | iret operandSize addressSize => exact hret _ rfl (hlevel _ rfl rfl)
  | register index s =>
    simp only [Bool.and_eq_true] at hkind
    have hkind := hkind.2
    have hdata : (isDataSegment desc.type || isReadableCodeSegment desc.type) = true →
        cpu.dataChecks selector desc =
          if !(isConformingCodeSegment desc.type || (decide (selectorRpl selector ≤ desc.dpl) &&
            decide (cpu.context.cpl ≤ desc.dpl))) then some .gp
          else if desc.present then none else some .np := by
      intro hok
      have hfirst : (!isDataSegment desc.type && !isReadableCodeSegment desc.type) = false := by
        rw [← Bool.not_or, hok]
        rfl
      have hsecond : (isDataSegment desc.type || !isConformingCodeSegment desc.type) =
          !isConformingCodeSegment desc.type := by
        cases hconforming : isConformingCodeSegment desc.type with
        | false => simp
        | true => simp [not_data_of_conforming hconforming]
      unfold Cpu.dataChecks
      rw [hfirst, hsecond]
      simp only [Bool.not_or, Bool.not_and, ← BitVec.not_le, decide_not]
      cases desc.present <;> rfl
    cases index with
    | none => exact hdata hkind
    | some index =>
      cases index with
      -- only the stack segment has to be at the level of the code
      | ss =>
        simp only [SegmentLoad.checks, Cpu.stackChecks, SegmentLoad.levelOk]
        simp only at hkind
        simp only [hkind, Bool.not_and, Bool.or_eq_true, Bool.not_eq_true', beq_eq_false_iff_ne,
          bne_iff_ne]
        split_ifs <;> simp_all
      | es | cs | ds | fs | gs => exact hdata hkind

/-- A descriptor with the right S, L and D bits that is of the wrong kind has the wrong
type, which the code sees. -/
theorem checks_of_wrong_type (hkind : load.kindOk low high = false)
    (hs : isCodeOrData high = true)
    (hmodes : ∀ t, load = .transfer t → ((decodeDescriptor low high).longMode &&
      (decodeDescriptor low high).db) = false) :
    load.checks cpu selector (decodeDescriptor low high) = some .gp := by
  simp only [SegmentLoad.kindOk, hs, Bool.true_and] at hkind
  generalize decodeDescriptor low high = desc at hkind hmodes
  cases load with
  | transfer t =>
    have hcode : isCodeSegment desc.type = false := by simpa [hmodes t rfl] using hkind
    have hfault : ∀ checkModes, cpu.codeFault checkModes desc = some .gp := by
      intro checkModes
      simp [Cpu.codeFault, hcode]
    cases t <;> simp [SegmentLoad.checks, Cpu.farChecks, Cpu.retChecks, hfault]
  | register index s =>
    have hdata : (isDataSegment desc.type || isReadableCodeSegment desc.type) = false →
        cpu.dataChecks selector desc = some .gp := by
      intro hok
      have hfirst : (!isDataSegment desc.type && !isReadableCodeSegment desc.type) = true := by
        rw [← Bool.not_or, hok]
        rfl
      simp [Cpu.dataChecks, hfirst]
    cases index with
    | none => exact hdata hkind
    | some index =>
      cases index with
      | ss =>
        simp only at hkind
        simp [SegmentLoad.checks, Cpu.stackChecks, hkind]
      | es | cs | ds | fs | gs => exact hdata hkind

/-- A return to an outer level is refused before anything else. -/
theorem checks_of_outer_return {t : FarTransfer}
    (hkind : (SegmentLoad.transfer t).kindOk low high = true) (hreturn : t.isReturn = true)
    (hrpl : cpu.context.cpl < selectorRpl selector) :
    (SegmentLoad.transfer t).checks cpu selector (decodeDescriptor low high) = some .gp := by
  simp only [SegmentLoad.kindOk] at hkind
  generalize decodeDescriptor low high = desc at hkind
  simp only [Bool.and_eq_true, Bool.not_eq_true'] at hkind
  obtain ⟨-, hcode, hmodes⟩ := hkind
  have hfault : cpu.codeFault true desc = none := by
    unfold Cpu.codeFault
    rw [Bool.and_assoc, hmodes]
    simp [hcode]
  have hne : (selectorRpl selector != cpu.context.cpl) = true := by
    rw [bne_iff_ne]
    rintro heq
    rw [heq] at hrpl
    exact absurd hrpl (BitVec.lt_irrefl _)
  have hret : cpu.retChecks selector desc = some .gp := by
    simp [Cpu.retChecks, hfault, Cpu.retPrivilegeFault, hne]
  cases t with
  | ret operandSize addressSize immediate => exact hret
  | iret operandSize addressSize => exact hret
  | jmpFar | callFarMem | callFarPtr => cases hreturn

/-- A descriptor that is not legal has a fault. -/
theorem archFault_of_not_legal {cpl : U8} (h : ¬ load.Legal low high) :
    ∃ fault, load.archFault cpl selector low high = some fault := by
  unfold SegmentLoad.archFault
  split_ifs with hkind hlevel hpresent
  · exact ⟨_, rfl⟩
  · exact ⟨_, rfl⟩
  · exact absurd ⟨by simpa using hkind, hpresent⟩ h
  · split
    · exact ⟨_, rfl⟩
    · exact ⟨_, rfl⟩

theorem archFault_of_wrong_kind {cpl : U8} (h : load.kindOk low high = false) :
    load.archFault cpl selector low high = some .gp := by
  simp [SegmentLoad.archFault, h]

/-- **What the code does not overlook it faults** as the architecture does. -/
theorem checks_of_not_overlooks (h : ¬ load.Overlooks cpu selector low high)
    (hlegal : ¬ load.Legal low high) :
    load.checks cpu selector (decodeDescriptor low high) =
      load.archFault cpu.context.cpl selector low high := by
  cases hkind : load.kindOk low high with
  | true =>
    by_cases houter : ∃ t, load = .transfer t ∧ t.isReturn = true ∧
        cpu.context.cpl < selectorRpl selector
    · obtain ⟨t, rfl, hreturn, hrpl⟩ := houter
      have habsent : (decodeDescriptor low high).present = false := by
        rw [← Bool.not_eq_true]
        exact fun hpresent => hlegal ⟨hkind, hpresent⟩
      have hlevel : (SegmentLoad.transfer t).levelOk cpu.context.cpl (selectorRpl selector)
          (decodeDescriptor low high) = false := by
        rw [← Bool.not_eq_true]
        exact fun hlevel => h (.inr ⟨hreturn, hrpl, habsent, hkind, hlevel⟩)
      rw [checks_of_outer_return hkind hreturn hrpl]
      simp [SegmentLoad.archFault, hkind, hlevel]
    · refine checks_of_kindOk hkind fun t ht hreturn => ?_
      rw [← BitVec.not_lt]
      exact fun hrpl => houter ⟨t, ht, hreturn, hrpl⟩
  | false =>
    rw [archFault_of_wrong_kind hkind]
    -- either a wrong bit, which is not overlooked, or a wrong type
    by_contra hchecks
    cases load with
    | transfer t =>
      by_cases hbits : isCodeOrData high = false ∨
          ((decodeDescriptor low high).longMode = true ∧ (decodeDescriptor low high).db = true)
      · exact h (.inl ⟨hbits, hchecks⟩)
      · push Not at hbits
        refine hchecks (checks_of_wrong_type hkind (by simpa using hbits.1) fun t' _ => ?_)
        simpa using hbits.2
    | register index s =>
      cases hs : isCodeOrData high with
      | false => exact h ⟨hs, hchecks⟩
      | true => exact hchecks (checks_of_wrong_type hkind hs fun t' ht' => by cases ht')

/-- **What the code overlooks** is not legal, and the code raises another fault, or none
where the fault is a general protection fault. -/
theorem checks_of_overlooks (h : load.Overlooks cpu selector low high) :
    ¬ load.Legal low high ∧
      load.checks cpu selector (decodeDescriptor low high) ≠
        load.archFault cpu.context.cpl selector low high ∧
      (load.checks cpu selector (decodeDescriptor low high) = none →
        load.archFault cpu.context.cpl selector low high = some .gp) := by
  have hwrong : load.kindOk low high = false →
      load.checks cpu selector (decodeDescriptor low high) ≠ some .gp →
      ¬ load.Legal low high ∧
        load.checks cpu selector (decodeDescriptor low high) ≠
          load.archFault cpu.context.cpl selector low high ∧
        (load.checks cpu selector (decodeDescriptor low high) = none →
          load.archFault cpu.context.cpl selector low high = some .gp) := by
    intro hkind hchecks
    refine ⟨fun hlegal => ?_, ?_, fun _ => archFault_of_wrong_kind hkind⟩
    · rw [hlegal.1] at hkind
      cases hkind
    · rwa [archFault_of_wrong_kind hkind]
  cases load with
  | transfer t =>
    rcases h with ⟨hbits, hchecks⟩ | ⟨hreturn, hrpl, habsent, hkind, hlevel⟩
    · refine hwrong ?_ hchecks
      rcases hbits with hs | ⟨hlong, hdb⟩
      · simp [SegmentLoad.kindOk, hs]
      · simp [SegmentLoad.kindOk, hlong, hdb]
    · rw [checks_of_outer_return hkind hreturn hrpl]
      refine ⟨fun hlegal => ?_, ?_, fun hnone => by cases hnone⟩
      · rw [hlegal.2] at habsent
        cases habsent
      · simp [SegmentLoad.archFault, hkind, hlevel, habsent]
  | register index s =>
    obtain ⟨hs, hchecks⟩ := h
    refine hwrong ?_ hchecks
    simp [SegmentLoad.kindOk, hs]

end Checks

/-! ## The outcome of a load -/

section Outcome

variable {load : SegmentLoad} {cpu : Cpu} {selector : U16} {low high : U32}

/-- The parts of an entry. -/
theorem entry_ok : load.entry cpu = .ok (selector, low, high) ↔
    load.selector cpu = .ok selector ∧ isNullSelector selector = false ∧
      cpu.descriptorWords selector = .ok (low, high) := by
  unfold SegmentLoad.entry
  rw [ok_bind_iff]
  constructor
  · rintro ⟨s, hselector, h⟩
    split_ifs at h with hnull
    obtain ⟨⟨low', high'⟩, hwords, h⟩ := ok_bind_iff.mp h
    cases h
    exact ⟨hselector, by simpa using hnull, hwords⟩
  · rintro ⟨hselector, hnull, hwords⟩
    refine ⟨selector, hselector, ?_⟩
    rw [if_neg (by simp [hnull])]
    exact ok_bind_iff.mpr ⟨_, hwords, rfl⟩

/-- The error code of a general protection fault is 0: the fault names no selector. -/
def Cpu.Unnamed (c : Cpu) : Prop :=
  c.context.exception.code = cpuExceptionGp → c.context.exception.errorCode = 0

theorem unnamed_raised (hexc : cpu.context.hasException = false) (fault : RaisedFault) :
    (cpu.raised fault 0).Unnamed := by
  intro _
  rw [Cpu.raised, raiseException_of_none hexc]

theorem unnamed_refused (hexc : cpu.context.hasException = false) {store : Bool} {a : U64}
    (h : cpu.dataPtr store a = none) : (cpu.refused store a).Unnamed := by
  unfold Cpu.dataPtr grantedPtr at h
  unfold Cpu.refused accessOutcome
  simp only [hexc, Bool.false_eq_true, if_false]
  split_ifs at h ⊢ with hcanon
  · exact unnamed_raised hexc .gp
  · cases hjudge : judgeAccess cpu.context.isUser
      (accessView cpu.memory a (dataAccess store).perm) with
    | ok ptr =>
      rw [hjudge] at h
      cases h
    | error violation =>
      intro hcode
      simp only [cpuRaisePageFault] at hcode
      rw [raiseException_of_none] at hcode
      · change cpuExceptionPf = cpuExceptionGp at hcode
        exact absurd hcode (by decide)
      · exact hexc

theorem unnamed_validOffset (hexc : cpu.context.hasException = false) {value : U64}
    {operandSize : ℕ} {c : Cpu} (h : cpu.validOffset value operandSize = .error c) :
    c.Unnamed := by
  unfold Cpu.validOffset at h
  split_ifs at h
  cases h
  exact unnamed_raised hexc .gp

theorem unnamed_slotPtrs (hexc : cpu.context.hasException = false) {address : U64} {size : ℕ}
    {c : Cpu} (h : cpu.slotPtrs address size = .error c) : c.Unnamed := by
  unfold Cpu.slotPtrs at h
  cases hptrs : cpu.operandPtrs true address size 0 with
  | ok ptrs =>
    rw [hptrs] at h
    cases h
  | error a =>
    rw [hptrs] at h
    cases h
    exact unnamed_refused hexc (operandPtrs_error size hptrs)

theorem unnamed_pushedReturn (hexc : cpu.context.hasException = false) {size : ℕ}
    {returnRip : U64} {c : Cpu} (h : cpu.pushedReturn size returnRip = .error c) :
    c.Unnamed := by
  unfold Cpu.pushedReturn Cpu.pushedTwo at h
  cases hsize : cpu.validStackSize size with
  | error c' =>
    rw [hsize] at h
    cases h
    unfold Cpu.validStackSize at hsize
    split_ifs at hsize <;> cases hsize <;> exact unnamed_raised hexc .gp
  | ok u =>
    rw [hsize] at h
    change (cpu.slotPtrs _ size >>= _) = _ at h
    cases hfirst : cpu.slotPtrs (cpu.belowStack size (cpu.context.regs regRsp)) size with
    | error c' =>
      rw [hfirst] at h
      cases h
      exact unnamed_slotPtrs hexc hfirst
    | ok firstPtrs =>
      rw [hfirst] at h
      change (cpu.slotPtrs _ size >>= _) = _ at h
      cases hsecond : cpu.slotPtrs (cpu.belowStack size
          (cpu.belowStack size (cpu.context.regs regRsp))) size with
      | error c' =>
        rw [hsecond] at h
        cases h
        exact unnamed_slotPtrs hexc hsecond
      | ok secondPtrs =>
        rw [hsecond] at h
        cases h

theorem error_bind_iff {ε α β : Type} {e : Except ε α} {f : α → Except ε β} {c : ε} :
    (e >>= f) = .error c ↔ e = .error c ∨ ∃ a, e = .ok a ∧ f a = .error c := by
  cases e with
  | error c' =>
    constructor
    · intro h
      cases h
      exact .inl rfl
    · rintro (h | ⟨_, h, -⟩)
      · cases h
        rfl
      · cases h
  | ok a =>
    constructor
    · exact fun h => .inr ⟨a, rfl, h⟩
    · rintro (h | ⟨_, ha, h⟩)
      · cases h
      · cases ha
        exact h

/-- What a load does behind the checks of the descriptor: it writes the descriptor, or it
ends in a fault that names no selector. -/
structure Finishes (load : SegmentLoad) (rest : SegmentDescriptor → Except Cpu Cpu) :
    Prop where
  written : ∀ desc c, rest desc = .ok c → load.loadedDescriptor c.context = desc
  unnamed : ∀ desc c, rest desc = .error c → c.Unnamed

/-- The rest of a load that checks the new instruction pointer and then completes. -/
theorem finishes_validOffset (hexc : cpu.context.hasException = false) {t : FarTransfer}
    (target : SegmentDescriptor → U64) (size : SegmentDescriptor → ℕ)
    {f : SegmentDescriptor → Except Cpu Cpu} (hf : Finishes (.transfer t) f) :
    Finishes (.transfer t) fun desc =>
      cpu.validOffset (target desc) (size desc) >>= fun _ => f desc where
  written desc c h := by
    obtain ⟨_, -, h⟩ := ok_bind_iff.mp h
    exact hf.written desc c h
  unnamed desc c h := by
    rcases error_bind_iff.mp h with h | ⟨_, -, h⟩
    · exact unnamed_validOffset hexc h
    · exact hf.unnamed desc c h

/-- The rest of a load that cannot fail. -/
theorem finishes_ok (f : SegmentDescriptor → Cpu)
    (h : ∀ desc, load.loadedDescriptor (f desc).context = desc) :
    Finishes load fun desc => .ok (f desc) where
  written desc c hc := by
    cases hc
    exact h desc
  unnamed desc c hc := by cases hc

/-- The rest of a far call. -/
theorem finishes_calledFrom (hexc : cpu.context.hasException = false) {t : FarTransfer}
    (itemSize : ℕ) (returnRip : U64) (selector : U16) (target : SegmentDescriptor → U64) :
    Finishes (.transfer t) fun desc =>
      cpu.calledFrom itemSize returnRip selector desc (target desc) where
  written desc c h := by
    obtain ⟨after, -, h⟩ := ok_bind_iff.mp h
    cases h
    rfl
  unnamed desc c h := by
    rcases error_bind_iff.mp h with h | ⟨_, -, h⟩
    · exact unnamed_pushedReturn hexc h
    · cases h

/-- The frame of a return and what is done with it. -/
theorem frame_bind {operandSize count : ℕ} {values : List U64} {stackAfterPops : U64}
    (hpeeked : cpu.peeked (operandBytes operandSize) count = .ok (values, stackAfterPops))
    (f : ReturnFrame → Except Cpu Cpu) :
    (cpu.frame operandSize count >>= f) =
      (cpu.validSelector ((values.getD 1 0).setWidth 16)
          (cpu.retChecks ((values.getD 1 0).setWidth 16)) >>= fun desc =>
        cpu.validOffset (values.getD 0 0) (if desc.longMode then 64 else operandSize) >>= fun _ =>
          f ⟨values, stackAfterPops, (values.getD 1 0).setWidth 16, desc⟩) := by
  unfold Cpu.frame
  rw [hpeeked]
  show ((cpu.validSelector ((values.getD 1 0).setWidth 16) _ >>= _) >>= _) = _
  cases cpu.validSelector ((values.getD 1 0).setWidth 16)
    (cpu.retChecks ((values.getD 1 0).setWidth 16)) with
  | error c => rfl
  | ok desc =>
    show ((cpu.validOffset _ _ >>= _) >>= _) = (cpu.validOffset _ _ >>= _)
    cases cpu.validOffset (values.getD 0 0) (if desc.longMode then 64 else operandSize) <;> rfl

/-- A register load reads its own selector. -/
theorem isNull_of_selector (hselector : load.selector cpu = .ok selector)
    (hnull : isNullSelector selector = false) : load.isNull = false := by
  cases load with
  | transfer t => rfl
  | register index s =>
    rcases index with _ | index
    · cases hselector
    · cases index <;> cases hselector <;> exact hnull

/-- A load checks the descriptor of the selector, and finishes. -/
def SegmentLoad.Splits (load : SegmentLoad) (cpu : Cpu) (selector : U16) : Prop :=
  ∃ rest, Finishes load rest ∧
    load.outcome cpu = (cpu.validSelector selector (load.checks cpu selector) >>= rest)

/-- A descriptor whose offset is checked with it, and what is done with the two. -/
theorem checked_bind {β : Type} (e : Except Cpu SegmentDescriptor)
    (check : SegmentDescriptor → Except Cpu Unit) (make : SegmentDescriptor → β)
    (f : β → Except Cpu Cpu) :
    ((e >>= fun desc => check desc >>= fun _ => .ok (make desc)) >>= f) =
      (e >>= fun desc => check desc >>= fun _ => f (make desc)) := by
  cases e with
  | error c => rfl
  | ok desc =>
    show ((check desc >>= _) >>= _) = (check desc >>= _)
    cases check desc <;> rfl

theorem splits_jmpFar (hexc : cpu.context.hasException = false) (s : U16) (offset : U64)
    (operandSize : ℕ) : (SegmentLoad.transfer (.jmpFar s offset operandSize)).Splits cpu s :=
  ⟨_, finishes_validOffset hexc (fun _ => cpuMaskCodeOffset offset operandSize)
    (fun desc => if desc.longMode then 64 else operandSize)
    (finishes_ok (fun desc => cpu.enter s desc (cpuMaskCodeOffset offset operandSize))
      fun _ => rfl), checked_bind _ _ _ _⟩

theorem splits_callFarMem (hexc : cpu.context.hasException = false) {memAddr : U64}
    {operandSize : ℕ} (returnRip : U64) {offset : U64} {s : U16}
    (hpointer : cpu.farPointer memAddr operandSize = .ok (offset, s)) :
    (SegmentLoad.transfer (.callFarMem memAddr operandSize returnRip)).Splits cpu s := by
  refine ⟨_, finishes_validOffset hexc (fun desc => Cpu.callTarget desc offset operandSize)
    (fun desc => if desc.longMode then 64 else operandSize)
    (finishes_calledFrom hexc (cpu.callItemSize operandSize) returnRip s fun desc =>
      Cpu.callTarget desc offset operandSize), ?_⟩
  show (cpu.farPointer memAddr operandSize >>= _) = _
  rw [hpointer]
  exact checked_bind _ _ _ _

theorem splits_callFarPtr (hexc : cpu.context.hasException = false) (s : U16) (offset : U32)
    (operandSize : ℕ) (returnRip : U64) :
    (SegmentLoad.transfer (.callFarPtr s offset operandSize returnRip)).Splits cpu s :=
  ⟨_, finishes_validOffset hexc (fun _ => Cpu.ptrTarget offset operandSize) (fun _ => operandSize)
    (finishes_calledFrom hexc (if operandSize = 32 then 4 else 2) returnRip s fun _ =>
      Cpu.ptrTarget offset operandSize), checked_bind _ _ _ _⟩

theorem splits_ret (hexc : cpu.context.hasException = false) {operandSize : ℕ} (addressSize : ℕ)
    (immediate : U16) {values : List U64} {stackAfterPops : U64}
    (hpeeked : cpu.peeked (operandBytes operandSize) 2 = .ok (values, stackAfterPops)) :
    (SegmentLoad.transfer (.ret operandSize addressSize immediate)).Splits cpu
      ((values.getD 1 0).setWidth 16) :=
  ⟨_, finishes_validOffset hexc (fun _ => values.getD 0 0)
    (fun desc => if desc.longMode then 64 else operandSize)
    (finishes_ok (fun desc =>
      (cpu.released addressSize immediate
        ⟨values, stackAfterPops, (values.getD 1 0).setWidth 16, desc⟩).enter
          ((values.getD 1 0).setWidth 16) desc
          (cpuMaskCodeOffset (values.getD 0 0) operandSize)) fun _ => rfl),
    frame_bind hpeeked _⟩

/-- The code segment behind an interrupt return. -/
theorem iretEntered_descriptor (operandSize addressSize : ℕ) (frame : ReturnFrame) :
    (cpu.iretEntered operandSize addressSize frame).context.cs.descriptor = frame.descriptor := by
  unfold Cpu.iretEntered
  dsimp only
  split_ifs
  · rfl
  · show (cpuSetStackPointerValue _ _ _).cs.descriptor = frame.descriptor
    unfold cpuSetStackPointerValue
    split_ifs <;> rfl

theorem splits_iret (hexc : cpu.context.hasException = false) {operandSize : ℕ} (addressSize : ℕ)
    {values : List U64} {stackAfterPops : U64}
    (hpeeked : cpu.peeked (operandBytes operandSize) (if operandSize = 64 then 5 else 3) =
      .ok (values, stackAfterPops)) :
    (SegmentLoad.transfer (.iret operandSize addressSize)).Splits cpu
      ((values.getD 1 0).setWidth 16) := by
  refine ⟨_, finishes_validOffset hexc (fun _ => values.getD 0 0)
    (fun desc => if desc.longMode then 64 else operandSize)
    (finishes_ok (fun desc => cpu.iretEntered operandSize addressSize
      ⟨values, stackAfterPops, (values.getD 1 0).setWidth 16, desc⟩) fun desc =>
        iretEntered_descriptor operandSize addressSize _), ?_⟩
  refine Eq.trans ?_ (frame_bind hpeeked fun frame =>
    .ok (cpu.iretEntered operandSize addressSize frame))
  show (cpu.frame operandSize _ >>= _) = _
  congr 1
  funext frame
  unfold Cpu.iretEntered
  dsimp only
  split_ifs <;> rfl

theorem splits_register {index : SegmentRegisterIndex} (hcs : index ≠ .cs) {s : U16}
    (hplain : isNullSelector s = false) : (SegmentLoad.register (some index) s).Splits cpu s := by
  refine ⟨_, finishes_ok (fun desc => cpu.setSegment index ⟨s, desc⟩) fun desc => ?_, ?_⟩
  · cases index with
    | cs => exact absurd rfl hcs
    | _ => rfl
  · cases index with
    | cs => exact absurd rfl hcs
    | ss => rfl
    | es | ds | fs | gs =>
      simp only [SegmentLoad.outcome, Cpu.segmentOutcome, hplain, Bool.false_eq_true, if_false]
      rfl

/-- **The parts of a load**: the selector, the checks of its descriptor, and the rest. -/
theorem outcome_split (hexc : cpu.context.hasException = false)
    (hselector : load.selector cpu = .ok selector) (hnull : load.isNull = false) :
    load.Splits cpu selector := by
  cases load with
  | transfer t =>
    cases t with
    | jmpFar s offset operandSize =>
      obtain rfl := Except.ok.inj hselector
      exact splits_jmpFar hexc s offset operandSize
    | callFarMem memAddr operandSize returnRip =>
      obtain ⟨⟨offset, s⟩, hpointer, hs⟩ := ok_bind_iff.mp hselector
      obtain rfl := Except.ok.inj hs
      exact splits_callFarMem hexc returnRip hpointer
    | callFarPtr s offset operandSize returnRip =>
      obtain rfl := Except.ok.inj hselector
      exact splits_callFarPtr hexc s offset operandSize returnRip
    | ret operandSize addressSize immediate =>
      obtain ⟨⟨values, stackAfterPops⟩, hpeeked, hs⟩ := ok_bind_iff.mp hselector
      obtain rfl := Except.ok.inj hs
      exact splits_ret hexc addressSize immediate hpeeked
    | iret operandSize addressSize =>
      obtain ⟨⟨values, stackAfterPops⟩, hpeeked, hs⟩ := ok_bind_iff.mp hselector
      obtain rfl := Except.ok.inj hs
      exact splits_iret hexc addressSize hpeeked
  | register index s =>
    cases index with
    | none => cases hselector
    | some index =>
      cases index with
      | cs => cases hselector
      | es | ss | ds | fs | gs =>
        obtain rfl := Except.ok.inj hselector
        exact splits_register (by decide) hnull

/-- A load whose selector cannot be read does not complete. -/
theorem outcome_of_selector_error {c : Cpu} (h : load.selector cpu = .error c) :
    load.outcome cpu = .error c := by
  cases load with
  | transfer t =>
    cases t with
    | jmpFar | callFarPtr => cases h
    | callFarMem memAddr operandSize returnRip =>
      rcases error_bind_iff.mp h with h | ⟨_, -, h⟩
      · show (cpu.farPointer memAddr operandSize >>= _) = _
        rw [h]
        rfl
      · cases h
    | ret operandSize addressSize immediate =>
      rcases error_bind_iff.mp h with h | ⟨_, -, h⟩
      · show ((cpu.peeked (operandBytes operandSize) 2 >>= _) >>= _) = _
        rw [h]
        rfl
      · cases h
    | iret operandSize addressSize =>
      rcases error_bind_iff.mp h with h | ⟨_, -, h⟩
      · show ((cpu.peeked (operandBytes operandSize) (if operandSize = 64 then 5 else 3) >>= _)
          >>= _) = _
        rw [h]
        rfl
      · cases h
  | register index s =>
    cases index with
    | none =>
      cases h
      rfl
    | some index =>
      cases index with
      | cs =>
        cases h
        rfl
      | es | ss | ds | fs | gs => cases h

/-- **A faulty descriptor** ends the load with the fault. -/
theorem outcome_of_fault (hexc : cpu.context.hasException = false)
    (hentry : load.entry cpu = .ok (selector, low, high)) {fault : RaisedFault}
    (hfault : load.checks cpu selector (decodeDescriptor low high) = some fault) :
    load.outcome cpu = .error (cpu.raised fault (selectorError selector)) := by
  obtain ⟨hselector, hnull, hwords⟩ := entry_ok.mp hentry
  obtain ⟨rest, -, hsplit⟩ := outcome_split hexc hselector (isNull_of_selector hselector hnull)
  rw [hsplit, validSelector_fault hnull hwords hfault]
  rfl

/-- **A completed load** has read an entry without a fault, and has written it. -/
theorem entry_of_outcome (hexc : cpu.context.hasException = false)
    (hnull : load.isNull = false) {c : Cpu} (h : load.outcome cpu = .ok c) :
    ∃ selector low high, load.entry cpu = .ok (selector, low, high) ∧
      load.checks cpu selector (decodeDescriptor low high) = none ∧
      load.loadedDescriptor c.context = decodeDescriptor low high := by
  cases hselector : load.selector cpu with
  | error c' =>
    rw [outcome_of_selector_error hselector] at h
    cases h
  | ok selector =>
    obtain ⟨rest, hrest, hsplit⟩ := outcome_split hexc hselector hnull
    rw [hsplit, ok_bind_iff] at h
    obtain ⟨desc, hvalid, hwritten⟩ := h
    obtain ⟨hplain, low, high, hwords, rfl, hfault⟩ := validSelector_ok.mp hvalid
    exact ⟨selector, low, high, entry_ok.mpr ⟨hselector, hplain, hwords⟩, hfault,
      hrest.written _ _ hwritten⟩

/-- A load with a descriptor without a fault completes, or ends in a fault that names no
selector. -/
theorem outcome_of_no_fault (hexc : cpu.context.hasException = false)
    (hentry : load.entry cpu = .ok (selector, low, high))
    (hfault : load.checks cpu selector (decodeDescriptor low high) = none) {c : Cpu}
    (h : load.outcome cpu = .error c) : c.Unnamed := by
  obtain ⟨hselector, hnull, hwords⟩ := entry_ok.mp hentry
  obtain ⟨rest, hrest, hsplit⟩ := outcome_split hexc hselector (isNull_of_selector hselector hnull)
  rw [hsplit, validSelector_done hnull hwords hfault] at h
  exact hrest.unnamed _ _ h

end Outcome

/-! ## When the law holds -/

section Law

variable {load : SegmentLoad} {cpu : Cpu} (hm : MemoryOk cpu.memory)
  (hexc : cpu.context.hasException = false)

include hm hexc

/-- The CPU after a load is its outcome, but for the page cache. -/
theorem after_outcome (load : SegmentLoad) :
    (load.after cpu).context = (transferred (load.outcome cpu)).2.context ∧
      (load.after cpu).memory.host = (transferred (load.outcome cpu)).2.memory.host := by
  have hstate : UpToCache (load.after cpu) (transferred (load.outcome cpu)).2 := by
    cases load with
    | transfer t => exact farTransfer_outcome hexc (.refl hm) t
    | register index selector =>
      have hview := (run_viewOp (loadSegmentRegister index selector) hm).2
      rwa [run_loadSegmentRegister hm.manager hexc] at hview
  have hcontext := congrArg Cpu.context hstate.eq
  have hhost := congrArg (fun c : Cpu => c.memory.host) hstate.eq
  exact ⟨hcontext.symm, hhost.symm⟩

omit hm in
theorem completes_load (load : SegmentLoad) : cpu.Completes (load.outcome cpu) := by
  have hset : ∀ index value, cpu.Completes (.ok (cpu.setSegment index value)) := by
    intro index value
    refine .ok ?_
    cases index <;> exact hexc
  cases load with
  | transfer t => exact completes_outcome hexc t
  | register index selector =>
    have hdata : ∀ index, cpu.Completes
        (if isNullSelector selector then .ok (cpu.setSegment index ⟨selector, .zero⟩)
          else cpu.validSelector selector (cpu.dataChecks selector) >>= fun desc =>
            .ok (cpu.setSegment index ⟨selector, desc⟩)) := by
      intro index
      split_ifs
      · exact hset _ _
      · exact (clean_validSelector hexc _ _).completes fun _ _ => hset _ _
    cases index with
    | none => exact .error (failed_raised hexc .gp 0)
    | some index =>
      cases index with
      | cs => exact .error (failed_raised hexc .ud 0)
      | ss => exact (clean_validSelector hexc _ _).completes fun _ _ => hset _ _
      | es | ds | fs | gs => exact hdata _

/-- A load raises nothing exactly if its outcome is a CPU. -/
theorem after_done (load : SegmentLoad) :
    (load.after cpu).context.hasException = false ↔ ∃ c, load.outcome cpu = .ok c := by
  have hdone := completes_load hexc load
  rw [(after_outcome hm hexc load).1]
  cases houtcome : load.outcome cpu with
  | error c =>
    rw [houtcome] at hdone
    cases hdone with
    | error hfailed => simp [transferred, hfailed.pending]
  | ok c =>
    rw [houtcome] at hdone
    cases hdone with
    | ok hnone => exact ⟨fun _ => ⟨c, rfl⟩, fun _ => hnone⟩

omit hm hexc in
theorem RaisedFault.code_injective : Function.Injective RaisedFault.code := by
  intro f g
  cases f <;> cases g <;> decide

omit hm hexc in
theorem selectorError_ne_zero {selector : U16} (h : isNullSelector selector = false) :
    selectorError selector ≠ 0 := by
  intro hzero
  have hnull : isNullSelector selector = true := by
    unfold isNullSelector
    rw [beq_iff_eq]
    unfold selectorError at hzero
    bv_omega
  rw [hnull] at h
  cases h

/-- A descriptor with a fault leaves the exception and changes nothing else. -/
theorem after_of_fault {selector : U16} {low high : U32}
    (hentry : load.entry cpu = .ok (selector, low, high)) {fault : RaisedFault}
    (hfault : load.checks cpu selector (decodeDescriptor low high) = some fault) :
    (load.after cpu).context =
        { cpu.context with exception := ⟨fault.code, selectorError selector⟩ } ∧
      (load.after cpu).memory.host = cpu.memory.host := by
  obtain ⟨hcontext, hhost⟩ := after_outcome hm hexc load
  rw [outcome_of_fault hexc hentry hfault] at hcontext hhost
  refine ⟨hcontext.trans ?_, hhost⟩
  exact raiseException_of_none hexc _ _

/-- **The law.**  A load meets it exactly when the code overlooks nothing in its entry. -/
theorem legalLoad_iff (load : SegmentLoad) : LegalLoad load cpu ↔
    ∀ selector low high, load.entry cpu = .ok (selector, low, high) →
      ¬ load.Overlooks cpu selector low high := by
  constructor
  -- an overlooked descriptor would be refused by the law, and the code has found no fault or
  -- another
  · intro hlaw selector low high hentry hoverlooks
    obtain ⟨hlegal, hne, hgp⟩ := checks_of_overlooks hoverlooks
    obtain ⟨fault, harch, hcontext, -⟩ := hlaw.refused selector low high hentry hlegal
    cases hchecks : load.checks cpu selector (decodeDescriptor low high) with
    | some found =>
      have hfound := (after_of_fault hm hexc hentry hchecks).1
      have hexception := congrArg CpuContext.exception (hfound.symm.trans hcontext)
      have hcode := congrArg CpuExceptionState.code hexception
      exact hne (by rw [hchecks, harch, RaisedFault.code_injective hcode])
    | none =>
      have hfault := harch.symm.trans (hgp hchecks)
      obtain rfl := Option.some.inj hfault
      cases houtcome : load.outcome cpu with
      | ok c =>
        have hnone := (after_done hm hexc load).mpr ⟨c, houtcome⟩
        rw [hcontext] at hnone
        change (cpuExceptionGp != cpuExceptionNone) = false at hnone
        exact absurd hnone (by decide)
      | error c =>
        -- a fault behind the checks does not name the selector
        have hunnamed := outcome_of_no_fault hexc hentry hchecks houtcome
        have hafter := (after_outcome hm hexc load).1
        rw [houtcome, hcontext] at hafter
        have hexception : c.context.exception = ⟨cpuExceptionGp, selectorError selector⟩ :=
          (congrArg CpuContext.exception hafter).symm
        have hzero : selectorError selector = 0 := by
          have hcode : c.context.exception.code = cpuExceptionGp := by rw [hexception]
          have herror := hunnamed hcode
          rwa [hexception] at herror
        exact selectorError_ne_zero (entry_ok.mp hentry).2.1 hzero
  -- without one, the code checks what the law checks
  · intro hnone
    refine ⟨fun hdone hnull => ?_, fun selector low high hentry hlegal => ?_⟩
    · obtain ⟨c, houtcome⟩ := (after_done hm hexc load).mp hdone
      obtain ⟨selector, low, high, hentry, hchecks, hwritten⟩ :=
        entry_of_outcome hexc hnull houtcome
      refine ⟨selector, low, high, hentry, ?_, ?_⟩
      · by_contra hlegal
        obtain ⟨fault, harch⟩ := @archFault_of_not_legal load selector low high
          cpu.context.cpl hlegal
        have hagree := checks_of_not_overlooks (hnone _ _ _ hentry) hlegal
        rw [hchecks, harch] at hagree
        cases hagree
      · rw [(after_outcome hm hexc load).1, houtcome]
        exact hwritten
    · obtain ⟨fault, harch⟩ := @archFault_of_not_legal load selector low high
        cpu.context.cpl hlegal
      have hagree := checks_of_not_overlooks (hnone _ _ _ hentry) hlegal
      exact ⟨fault, harch, after_of_fault hm hexc hentry (hagree.trans harch)⟩

end Law

/-- 32-bit code in long mode with an entry that has L = 1 and D = 1, and a stack. -/
def compatCall : Cpu :=
  hostCpu { initCpuContext true with
      gdtrLimit := 0xFF
      regs := Function.update (fun _ => 0) regRsp 0x80 }
    (byteImage [(0x08, 0xFF), (0x09, 0xFF), (0x0D, 0x9B), (0x0E, 0xEF)])

/-- The far call with a pointer loads a segment that is a 64-bit and a 32-bit one. -/
theorem callFarPtr_loads_illegal : ¬ ∀ (load : SegmentLoad) (cpu : Cpu),
    MemoryOk cpu.memory → cpu.context.hasException = false → LegalLoad load cpu := by
  intro hall
  have hlaw := hall (.transfer (.callFarPtr 8 0x1000 32 0)) compatCall (memoryOk_hostCpu _ _) rfl
  obtain ⟨selector, low, high, hentry, hlegal, -⟩ := hlaw.loaded (by decide +kernel) rfl
  have hread : (SegmentLoad.transfer (.callFarPtr 8 0x1000 32 0)).entry compatCall =
      .ok (8, 0xFFFF, 0xEF9B00) := rfl
  cases hread.symm.trans hentry
  exact absurd hlegal.1 (by decide)

theorem legalLoad_iff_compatCall : LegalLoad (.transfer (.callFarPtr 8 0x1000 32 0)) compatCall ↔
    ∀ selector low high,
      (SegmentLoad.transfer (.callFarPtr 8 0x1000 32 0)).entry compatCall =
        .ok (selector, low, high) →
      ¬ (SegmentLoad.transfer (.callFarPtr 8 0x1000 32 0)).Overlooks compatCall selector low high :=
  legalLoad_iff (memoryOk_hostCpu _ _) rfl _

end Cpueaxh
