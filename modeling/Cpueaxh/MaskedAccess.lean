/-
# What masked accesses touch

The lanes of a vector access, each with its mask bit and its address, and the programs that
access the selected ones only: an access that is refused is one to a byte of a selected lane,
the bytes that are loaded, stored and reported are those of the selected lanes, and without a
refused byte they are all of them, in order.
-/
import Cpueaxh.AccessTrace
import Cpueaxh.MaskedLanes

namespace Cpueaxh

open ByteOrder HostMemory Program

/-! ## Selected lanes -/

/-- The bytes of the selected lanes. -/
def selectedBytes (size : ℕ) (lanes : List (Bool × U64)) : List U64 :=
  lanes.flatMap fun lane => if lane.1 then byteRange lane.2 size else []

/-- The pointers to the bytes of the selected lanes, or the first of these bytes that is
refused. -/
def Cpu.lanePtrs (cpu : Cpu) (store : Bool) (size : ℕ) :
    List (Bool × U64) → Except U64 (List HostPtr)
  | [] => .ok []
  | (selected, address) :: lanes =>
    if selected then
      match cpu.operandPtrs store address size 0 with
      | .error a => .error a
      | .ok ptrs => (cpu.lanePtrs store size lanes).map (ptrs ++ ·)
    else cpu.lanePtrs store size lanes

variable {cpu : Cpu} {store : Bool} {size : ℕ} {address : U64}

/-- The bytes of a lane in front of the others. -/
theorem selectedBytes_cons (selected : Bool) (lanes : List (Bool × U64)) :
    selectedBytes size ((selected, address) :: lanes) =
      (if selected then byteRange address size else []) ++ selectedBytes size lanes := rfl

theorem mem_selectedBytes {lanes : List (Bool × U64)} {a : U64} :
    a ∈ selectedBytes size lanes ↔ ∃ lane ∈ lanes, lane.1 = true ∧ a ∈ byteRange lane.2 size := by
  rw [selectedBytes, List.mem_flatMap]
  refine exists_congr fun lane => and_congr_right fun _ => ?_
  cases lane.1 <;> simp

/-- The bytes behind the bytes of the offset. -/
theorem operandPtrs_shift (left : ℕ) : ∀ offset offset' : U64,
    cpu.operandPtrs store (address + offset) left offset' =
      cpu.operandPtrs store address left (offset + offset') := by
  induction left with
  | zero => exact fun _ _ => rfl
  | succ left ih =>
    intro offset offset'
    rw [Cpu.operandPtrs, Cpu.operandPtrs, ih, BitVec.add_assoc, BitVec.add_assoc]

/-- Two operands behind one another are one. -/
theorem operandPtrs_append (m n : ℕ) : ∀ offset : U64,
    cpu.operandPtrs store address (m + n) offset =
      match cpu.operandPtrs store address m offset with
      | .error a => .error a
      | .ok ptrs => (cpu.operandPtrs store address n (offset + BitVec.ofNat 64 m)).map (ptrs ++ ·) := by
  induction m with
  | zero =>
    intro offset
    rw [Nat.zero_add, show offset + BitVec.ofNat 64 0 = offset from BitVec.add_zero offset]
    cases cpu.operandPtrs store address n offset <;> rfl
  | succ m ih =>
    intro offset
    rw [Nat.add_right_comm, Cpu.operandPtrs, Cpu.operandPtrs, ih (offset + 1), offset_succ]
    cases cpu.dataPtr store (address + offset) with
    | none => rfl
    | some p =>
      cases cpu.operandPtrs store address m (offset + 1) with
      | error a => rfl
      | ok ptrs =>
        cases cpu.operandPtrs store address n (offset + BitVec.ofNat 64 (m + 1)) <;> rfl

/-- Two operands behind one another, by their addresses. -/
theorem operandPtrs_add (m n : ℕ) (address : U64) :
    cpu.operandPtrs store address (m + n) 0 =
      match cpu.operandPtrs store address m 0 with
      | .error a => .error a
      | .ok ptrs => (cpu.operandPtrs store (address + BitVec.ofNat 64 m) n 0).map (ptrs ++ ·) := by
  rw [operandPtrs_append, operandPtrs_shift, zero_add_offset,
    show BitVec.ofNat 64 m + 0 = BitVec.ofNat 64 m from BitVec.add_zero _]

/-- A refused operand, by its bytes. -/
theorem operandPtrs_error_range {a : U64}
    (h : cpu.operandPtrs store address size 0 = .error a) :
    a ∈ byteRange address size ∧ cpu.dataPtr store a = none := by
  obtain ⟨j, hj, rfl⟩ := operandPtrs_error_mem size h
  rw [zero_add_offset] at h ⊢
  exact ⟨mem_byteRange.mpr ⟨j, hj, rfl⟩, operandPtrs_error size h⟩

/-- A granted operand, by its bytes. -/
theorem operandPtrs_ok_range {ptrs : List HostPtr}
    (h : cpu.operandPtrs store address size 0 = .ok ptrs) {p : HostPtr} (hp : p ∈ ptrs) :
    ∃ a ∈ byteRange address size, cpu.dataPtr store a = some p := by
  obtain ⟨j, hj, hptr⟩ := operandPtrs_ok_mem size h hp
  rw [zero_add_offset] at hptr
  exact ⟨_, mem_byteRange.mpr ⟨j, hj, rfl⟩, hptr⟩

/-- The refused byte of some lanes is one of a selected lane. -/
theorem lanePtrs_error {a : U64} : ∀ {lanes : List (Bool × U64)},
    cpu.lanePtrs store size lanes = .error a →
      a ∈ selectedBytes size lanes ∧ cpu.dataPtr store a = none
  | (selected, address) :: lanes, h => by
    rw [selectedBytes_cons, List.mem_append]
    rw [Cpu.lanePtrs] at h
    cases selected with
    | false =>
      have hrest := lanePtrs_error h
      exact ⟨.inr hrest.1, hrest.2⟩
    | true =>
      simp only [if_true] at h ⊢
      cases hptrs : cpu.operandPtrs store address size 0 with
      | error b =>
        rw [hptrs] at h
        obtain rfl := Except.error.inj h
        have hbyte := operandPtrs_error_range hptrs
        exact ⟨.inl hbyte.1, hbyte.2⟩
      | ok ptrs =>
        rw [hptrs] at h
        cases hlanes : cpu.lanePtrs store size lanes with
        | ok rest => simp only [hlanes] at h; cases h
        | error b =>
          simp only [hlanes] at h
          obtain rfl := Except.error.inj h
          have hrest := lanePtrs_error hlanes
          exact ⟨.inr hrest.1, hrest.2⟩

/-- The pointers of a selected lane in front of the others. -/
theorem lanePtrs_cons_ok {lanes : List (Bool × U64)} {ptrs : List HostPtr}
    (h : cpu.lanePtrs store size ((true, address) :: lanes) = .ok ptrs) :
    ∃ first rest, cpu.operandPtrs store address size 0 = .ok first ∧
      cpu.lanePtrs store size lanes = .ok rest ∧ ptrs = first ++ rest := by
  rw [Cpu.lanePtrs, if_pos rfl] at h
  cases hfirst : cpu.operandPtrs store address size 0 with
  | error a => rw [hfirst] at h; cases h
  | ok first =>
    cases hrest : cpu.lanePtrs store size lanes with
    | error a => simp only [hfirst, hrest] at h; cases h
    | ok rest =>
      simp only [hfirst, hrest] at h
      exact ⟨first, rest, rfl, rfl, (Except.ok.inj h).symm⟩

/-- Each pointer of some lanes is the one of a byte of a selected lane. -/
theorem lanePtrs_ok_mem {p : HostPtr} : ∀ {lanes : List (Bool × U64)} {ptrs : List HostPtr},
    cpu.lanePtrs store size lanes = .ok ptrs → p ∈ ptrs →
      ∃ a ∈ selectedBytes size lanes, cpu.dataPtr store a = some p
  | [], ptrs, h, hp => by
    cases h
    cases hp
  | (false, address) :: lanes, ptrs, h, hp => @lanePtrs_ok_mem p lanes ptrs h hp
  | (true, address) :: lanes, ptrs, h, hp => by
    obtain ⟨first, rest, hfirst, hrest, rfl⟩ := lanePtrs_cons_ok h
    rw [selectedBytes_cons, if_pos rfl]
    rcases List.mem_append.mp hp with hp | hp
    · obtain ⟨a, ha, hptr⟩ := operandPtrs_ok_range hfirst hp
      exact ⟨a, List.mem_append_left _ ha, hptr⟩
    · obtain ⟨a, ha, hptr⟩ := lanePtrs_ok_mem hrest hp
      exact ⟨a, List.mem_append_right _ ha, hptr⟩

/-- Each byte of a granted operand has a pointer. -/
theorem operandPtrs_granted (left : ℕ) {offset : U64} {ptrs : List HostPtr}
    (h : cpu.operandPtrs store address left offset = .ok ptrs) :
    ∀ j < left, cpu.dataPtr store (address + (offset + BitVec.ofNat 64 j)) ≠ none := by
  intro j hj
  rw [operandPtrs_getElem left h j hj, Ne, List.getElem?_eq_none_iff, operandPtrs_length left h]
  omega

theorem operandPtrs_granted_range {a : U64} {ptrs : List HostPtr}
    (h : cpu.operandPtrs store address size 0 = .ok ptrs) (ha : a ∈ byteRange address size) :
    cpu.dataPtr store a ≠ none := by
  obtain ⟨j, hj, rfl⟩ := mem_byteRange.mp ha
  have hgranted := operandPtrs_granted size h j hj
  rwa [zero_add_offset] at hgranted

/-- Granted lanes have no refused byte. -/
theorem lanePtrs_ok_granted {a : U64} : ∀ {lanes : List (Bool × U64)} {ptrs : List HostPtr},
    cpu.lanePtrs store size lanes = .ok ptrs → a ∈ selectedBytes size lanes →
      cpu.dataPtr store a ≠ none
  | [], ptrs, h, ha => by cases ha
  | (false, address) :: lanes, ptrs, h, ha => @lanePtrs_ok_granted a lanes ptrs h ha
  | (true, address) :: lanes, ptrs, h, ha => by
    obtain ⟨first, rest, hfirst, hrest, rfl⟩ := lanePtrs_cons_ok h
    rw [selectedBytes_cons, if_pos rfl, List.mem_append] at ha
    rcases ha with ha | ha
    · exact operandPtrs_granted_range hfirst ha
    · exact lanePtrs_ok_granted hrest ha

/-! ## Accesses to selected lanes -/

/-- A program accesses the selected lanes and nothing else: what it touches and reports are
bytes of theirs, it is refused only at such a byte, and if none of them is refused, it
accesses them all in order, without an exception. -/
structure LaneAccess (interp : Interpreter Cpu CpuOp CpuOp.Reply) (cpu : Cpu) (store : Bool)
    (size : ℕ) (lanes : List (Bool × U64)) (p : CpuProgram Unit) : Prop where
  refusals : p.Along interp (RefusedAt (· ∈ selectedBytes size lanes)) cpu
  touched : ∀ q ∈ loads (p.calls interp cpu) ++ stores (p.calls interp cpu),
    ∃ a ∈ selectedBytes size lanes, cpu.dataPtr store a = some q
  reported : ∀ a ∈ reportedBytes .memRead (p.calls interp cpu) ++
    reportedBytes .memWrite (p.calls interp cpu), a ∈ selectedBytes size lanes
  granted : ∀ ptrs, cpu.lanePtrs store size lanes = .ok ptrs →
    (p.run interp cpu).2.context.hasException = false ∧
    loads (p.calls interp cpu) = (if store then [] else ptrs) ∧
    stores (p.calls interp cpu) = (if store then ptrs else []) ∧
    reportedBytes (if store then .memWrite else .memRead) (p.calls interp cpu) =
      selectedBytes size lanes
  refused : ∀ a, cpu.lanePtrs store size lanes = .error a →
    (p.run interp cpu).2.context.hasException = true ∧ stores (p.calls interp cpu) = [] ∧
    (p.run interp cpu).2.memory.host = cpu.memory.host

/-- An access past the page cache. -/
theorem LaneAccess.iff_viewOp {lanes : List (Bool × U64)} {p : CpuProgram Unit}
    (hm : MemoryOk cpu.memory) :
    LaneAccess cpuOp cpu store size lanes p ↔ LaneAccess viewOp cpu store size lanes p := by
  have hcalls := (calls_viewOp (fun _ => True) p hm).1
  have halong := (calls_viewOp (· ∈ selectedBytes size lanes) p hm).2
  have hcontext := (run_viewOp p hm).2.context_eq
  have hhost := (run_viewOp p hm).2.host_eq
  constructor <;> intro h
  · obtain ⟨h₁, h₂, h₃, h₄, h₅⟩ := h
    rw [hcalls] at h₂ h₃ h₄ h₅
    rw [hcontext] at h₄ h₅
    rw [hhost] at h₅
    exact ⟨halong.mp h₁, h₂, h₃, h₄, h₅⟩
  · obtain ⟨h₁, h₂, h₃, h₄, h₅⟩ := h
    rw [← hcalls] at h₂ h₃ h₄ h₅
    rw [← hcontext] at h₄ h₅
    rw [← hhost] at h₅
    exact ⟨halong.mpr h₁, h₂, h₃, h₄, h₅⟩

/-! ## Stores -/

/-- The lanes of some elements, from the `i`-th on. -/
def elementLanes (size : ℕ) (address : U64) : List (Bool × U64) → ℕ → List (Bool × U64)
  | [], _ => []
  | (selected, _) :: elements, i =>
    (selected, address + BitVec.ofNat 64 (i * size)) :: elementLanes size address elements (i + 1)

theorem probe_resolveMaskedElements (size : ℕ) (address : U64) (elements : List (Bool × U64)) :
    ∀ i, (resolveMaskedElements size address elements i).Within CpuOp.Probe := by
  induction elements with
  | nil => exact fun _ => within_pure _
  | cons e elements ih =>
    intro i
    obtain ⟨selected, value⟩ := e
    cases selected with
    | false => exact ih (i + 1)
    | true =>
      unfold resolveMaskedElements
      refine (probe_resolveBytes _ _ _ _).bind fun ptrs => ?_
      cases ptrs with
      | none => exact within_pure _
      | some ptrs =>
        refine (ih (i + 1)).bind fun rest => ?_
        cases rest <;> exact within_pure _

/-- The pointers to the bytes of the selected elements. -/
theorem run_resolveMaskedElements (hexc : cpu.context.hasException = false) (size : ℕ)
    (address : U64) (elements : List (Bool × U64)) : ∀ i,
    (resolveMaskedElements size address elements i).run viewOp cpu =
      match cpu.lanePtrs true size (elementLanes size address elements i) with
      | .error a => (none, cpu.refused true a)
      | .ok ptrs => (some ptrs, cpu) := by
  induction elements with
  | nil => exact fun _ => rfl
  | cons e elements ih =>
    intro i
    obtain ⟨selected, value⟩ := e
    cases selected with
    | false => exact ih (i + 1)
    | true =>
      unfold resolveMaskedElements elementLanes Cpu.lanePtrs
      simp only [if_true, Program.run_bind, run_resolveBytes hexc]
      cases cpu.operandPtrs true (address + BitVec.ofNat 64 (i * size)) size 0 with
      | error a => rfl
      | ok ptrs =>
        simp only [Program.run_bind, ih (i + 1)]
        cases cpu.lanePtrs true size (elementLanes size address elements (i + 1)) <;> rfl

theorem refused_resolveMaskedElements (hexc : cpu.context.hasException = false) (size : ℕ)
    (address : U64) (elements : List (Bool × U64)) : ∀ i,
    (resolveMaskedElements size address elements i).Along viewOp
      (RefusedAt (· ∈ selectedBytes size (elementLanes size address elements i))) cpu := by
  induction elements with
  | nil => exact fun _ => along_pure _ _
  | cons e elements ih =>
    intro i
    obtain ⟨selected, value⟩ := e
    cases selected with
    | false => exact ih (i + 1)
    | true =>
      unfold resolveMaskedElements elementLanes
      rw [selectedBytes_cons]
      simp only [if_true]
      refine along_bind.mpr ⟨(refused_resolveBytes hexc size 0).mono fun o s h =>
        h.mono fun a ha => List.mem_append_left _ (operandPtrs_error_range ha).1, ?_⟩
      rw [run_resolveBytes hexc]
      cases cpu.operandPtrs true (address + BitVec.ofNat 64 (i * size)) size 0 with
      | error a => exact along_pure _ _
      | ok ptrs =>
        refine along_bind.mpr ⟨(ih (i + 1)).mono fun o s h =>
          h.mono fun a ha => List.mem_append_right _ ha, ?_⟩
        cases ((resolveMaskedElements size address elements (i + 1)).run viewOp cpu).1 <;>
          exact along_pure _ _

/-- The operands of the selected elements. -/
def selectedOperands (size : ℕ) (lanes : List (Bool × U64)) : List (U64 × ℕ) :=
  lanes.flatMap fun lane => if lane.1 then [(lane.2, size)] else []

theorem selectedOperands_bytes (size : ℕ) (lanes : List (Bool × U64)) :
    ((selectedOperands size lanes).flatMap fun r => byteRange r.1 r.2) =
      selectedBytes size lanes := by
  rw [selectedOperands, selectedBytes, List.flatMap_assoc]
  refine List.flatMap_congr fun lane _ => ?_
  cases lane.1 <;> simp

/-- What the notifications of the elements report. -/
theorem traffic_notifyMaskedElements (size : ℕ) (address : U64) (elements : List (Bool × U64)) :
    ∀ i, Traffic ((notifyMaskedElements size address elements i).calls viewOp cpu) [] [] []
      (selectedOperands size (elementLanes size address elements i)) := by
  induction elements with
  | nil => exact fun _ => QuietTrace.nil
  | cons e elements ih =>
    intro i
    obtain ⟨selected, value⟩ := e
    cases selected with
    | false => exact ih (i + 1)
    | true =>
      have hfirst : Traffic [CpuOp.notify .memWrite (address + BitVec.ofNat 64 (i * size)) size value]
          [] [] [] [(address + BitVec.ofNat 64 (i * size), size)] := ⟨rfl, rfl, rfl, rfl⟩
      exact hfirst.append (ih (i + 1))

theorem run_notifyMaskedElements (size : ℕ) (address : U64) (elements : List (Bool × U64)) :
    ∀ i, (notifyMaskedElements size address elements i).run viewOp cpu = ((), cpu) := by
  induction elements with
  | nil => exact fun _ => rfl
  | cons e elements ih =>
    intro i
    obtain ⟨selected, value⟩ := e
    cases selected <;> exact ih (i + 1)

theorem direct_notifyMaskedElements (size : ℕ) (address : U64) (elements : List (Bool × U64)) :
    ∀ i, (notifyMaskedElements size address elements i).Within CpuOp.Direct := by
  induction elements with
  | nil => exact fun _ => within_pure _
  | cons e elements ih =>
    intro i
    obtain ⟨selected, value⟩ := e
    cases selected with
    | false => exact ih (i + 1)
    | true => exact (within_perform trivial).bind fun _ => ih (i + 1)

theorem traffic_commitBytes (ptrs : List HostPtr) : ∀ (bytes : List U8) (cpu : Cpu),
    ptrs.length = bytes.length →
      Traffic ((commitBytes ptrs bytes).calls viewOp cpu) [] ptrs [] [] := by
  induction ptrs with
  | nil =>
    intro bytes cpu _
    unfold commitBytes
    exact QuietTrace.nil
  | cons p ptrs ih =>
    rintro (_ | ⟨byte, bytes⟩) cpu h
    · cases h
    have hfirst : Traffic ((perform (.store p byte)).calls viewOp cpu) [] [p] [] [] :=
      ⟨rfl, rfl, rfl, rfl⟩
    unfold commitBytes
    rw [calls_bind]
    exact hfirst.append (ih bytes _ (by simpa using h))

theorem direct_commitBytes : ∀ (ptrs : List HostPtr) (bytes : List U8),
    (commitBytes ptrs bytes).Within CpuOp.Direct
  | [], _ => by unfold commitBytes; exact within_pure _
  | _ :: _, [] => within_pure _
  | p :: ptrs, byte :: bytes => by
    have hstore : (perform (.store p byte)).Within CpuOp.Direct := within_perform trivial
    unfold commitBytes
    exact hstore.bind fun _ => direct_commitBytes ptrs bytes

theorem lanePtrs_length (elements : List (Bool × U64)) : ∀ {i : ℕ} {ptrs : List HostPtr},
    cpu.lanePtrs store size (elementLanes size address elements i) = .ok ptrs →
      ptrs.length = (maskedBytes size elements).length := by
  induction elements with
  | nil =>
    intro i ptrs h
    cases h
    rfl
  | cons e elements ih =>
    intro i ptrs h
    obtain ⟨selected, value⟩ := e
    cases selected with
    | false => exact ih (i := i + 1) h
    | true =>
      obtain ⟨first, rest, hfirst, hrest, rfl⟩ := lanePtrs_cons_ok h
      have hbytes : maskedBytes size ((true, value) :: elements) =
          littleEndianBytes size value ++ maskedBytes size elements := rfl
      rw [hbytes, List.length_append, List.length_append, littleEndianBytes_length, ih hrest,
        operandPtrs_length size hfirst]

/-- **A store under a mask** stores the selected elements, or is refused before it stores. -/
theorem run_writeMaskedElements (hexc : cpu.context.hasException = false) (size : ℕ)
    (address : U64) (elements : List (Bool × U64)) :
    (writeMaskedElements size address elements).run viewOp cpu = ((),
      match cpu.lanePtrs true size (elementLanes size address elements 0) with
      | .error a => cpu.refused true a
      | .ok ptrs => cpu.setHost (commitHost cpu.memory.host ptrs (maskedBytes size elements))) := by
  have hpending : (cpuHasException).run viewOp cpu = (cpu.context.hasException, cpu) := rfl
  unfold writeMaskedElements
  rw [Program.run_bind, hpending]
  simp only [hexc, Bool.false_eq_true, if_false, Program.run_bind, run_resolveMaskedElements hexc]
  cases cpu.lanePtrs true size (elementLanes size address elements 0) with
  | error a => rfl
  | ok ptrs => simp only [Program.run_bind, run_notifyMaskedElements, run_commitBytes]

/-- **A store under a mask** accesses the selected lanes only. -/
theorem laneAccess_writeMaskedElements (hexc : cpu.context.hasException = false) (size : ℕ)
    (address : U64) (elements : List (Bool × U64)) :
    LaneAccess viewOp cpu true size (elementLanes size address elements 0)
      (writeMaskedElements size address elements) := by
  have hpending : (cpuHasException).run viewOp cpu = (cpu.context.hasException, cpu) := rfl
  have hlook : QuietTrace (cpuHasException.calls viewOp cpu) := ⟨rfl, rfl, rfl, rfl⟩
  have hprobe : QuietTrace ((resolveMaskedElements size address elements 0).calls viewOp cpu) :=
    quietTrace_of_probe (probe_resolveMaskedElements _ _ _ _) cpu
  have hrun := run_writeMaskedElements hexc size address elements
  -- what the store does as a whole
  have htraffic : match cpu.lanePtrs true size (elementLanes size address elements 0) with
      | .error _ => QuietTrace ((writeMaskedElements size address elements).calls viewOp cpu)
      | .ok ptrs => Traffic ((writeMaskedElements size address elements).calls viewOp cpu) [] ptrs []
          (selectedOperands size (elementLanes size address elements 0)) := by
    unfold writeMaskedElements
    rw [calls_bind, hpending]
    simp only [hexc, Bool.false_eq_true, if_false, calls_bind, run_resolveMaskedElements hexc]
    cases hptrs : cpu.lanePtrs true size (elementLanes size address elements 0) with
    | error a => exact .behind hlook (.behind hprobe QuietTrace.nil)
    | ok ptrs =>
      refine .behind hlook (.behind hprobe ?_)
      simp only [calls_bind, run_notifyMaskedElements]
      simpa using (traffic_notifyMaskedElements size address elements 0).append
        (traffic_commitBytes ptrs _ cpu (lanePtrs_length elements hptrs))
  have hrefusals : (writeMaskedElements size address elements).Along viewOp
      (RefusedAt (· ∈ selectedBytes size (elementLanes size address elements 0))) cpu := by
    unfold writeMaskedElements
    refine along_bind.mpr ⟨along_bind.mpr ⟨along_perform.mpr trivial, along_pure _ _⟩, ?_⟩
    rw [hpending]
    simp only [hexc, Bool.false_eq_true, if_false]
    refine along_bind.mpr ⟨refused_resolveMaskedElements hexc size address elements 0, ?_⟩
    rw [run_resolveMaskedElements hexc]
    cases cpu.lanePtrs true size (elementLanes size address elements 0) with
    | error a => exact along_pure _ _
    | ok ptrs =>
      exact along_of_direct ((direct_notifyMaskedElements _ _ _ _).bind fun _ =>
        direct_commitBytes _ _)
  cases hptrs : cpu.lanePtrs true size (elementLanes size address elements 0) with
  | error a =>
    rw [hptrs] at htraffic hrun
    have hquiet := htraffic
    refine ⟨hrefusals, ?_, ?_, fun ptrs h => ?_, fun b h => ?_⟩
    · rw [hquiet.loads_eq, hquiet.stores_eq]
      exact fun q hq => absurd hq List.not_mem_nil
    · unfold reportedBytes
      rw [hquiet.reads_eq, hquiet.writes_eq]
      exact fun a ha => absurd ha List.not_mem_nil
    · cases hptrs.symm.trans h
    · rw [hrun]
      exact ⟨refused_hasException hexc (lanePtrs_error hptrs).2, hquiet.stores_eq, rfl⟩
  | ok ptrs =>
    rw [hptrs] at htraffic hrun
    have hwrites : reportedBytes .memWrite ((writeMaskedElements size address elements).calls viewOp
        cpu) = selectedBytes size (elementLanes size address elements 0) := by
      rw [reportedBytes, htraffic.writes_eq, selectedOperands_bytes]
    refine ⟨hrefusals, ?_, ?_, fun ptrs' h => ?_, fun b h => ?_⟩
    · rw [htraffic.loads_eq, htraffic.stores_eq]
      exact fun q hq => lanePtrs_ok_mem hptrs hq
    · rw [hwrites, reportedBytes, htraffic.reads_eq]
      exact fun a ha => ha
    · obtain rfl := Except.ok.inj (hptrs.symm.trans h)
      rw [hrun]
      exact ⟨hexc, htraffic.loads_eq, htraffic.stores_eq, hwrites⟩
    · cases hptrs.symm.trans h

/-! ## Gathers -/

/-- The value that a load finds at an address. -/
def Cpu.loadedLane (cpu : Cpu) (size : ℕ) (address : U64) : U64 :=
  match cpu.operandPtrs false address size 0 with
  | .error _ => 0
  | .ok ptrs => loadValue cpu.memory.host ptrs

/-- The lanes of a loop from the `i`-th on. -/
def lanesFrom (selected : ℕ → Bool) (address : ℕ → U64) : ℕ → ℕ → List (Bool × U64)
  | 0, _ => []
  | left + 1, i => (selected i, address i) :: lanesFrom selected address left (i + 1)

section Gather

variable {V : Type} {w : ℕ} (lanes : Lanes V w) (size : ℕ) (selected : ℕ → Bool)
  (laneAddress : ℕ → U64)

/-- A gather under a pending exception goes on, but touches nothing. -/
theorem gatherLoop_pending (hexc : cpu.context.hasException = true) (left : ℕ) : ∀ (i : ℕ) (v : V),
    (∃ v', (gatherLoop lanes size selected laneAddress left i v).run viewOp cpu = (v', cpu)) ∧
      QuietTrace ((gatherLoop lanes size selected laneAddress left i v).calls viewOp cpu) := by
  induction left with
  | zero => exact fun _ v => ⟨⟨v, rfl⟩, QuietTrace.nil⟩
  | succ left ih =>
    intro i v
    have hpending : (cpuHasException).run viewOp cpu = (cpu.context.hasException, cpu) := rfl
    have hread : QuietTrace ((readMemory size (laneAddress i)).calls viewOp cpu) := by
      unfold readMemory
      rw [calls_bind, hpending]
      simp only [hexc, if_true]
      exact ⟨rfl, rfl, rfl, rfl⟩
    unfold gatherLoop
    cases selected i with
    | false => exact ih (i + 1) v
    | true =>
      simp only [if_true]
      rw [Program.run_bind, calls_bind, run_readMemory_pending hexc]
      obtain ⟨hrun, hquiet⟩ := ih (i + 1) (lanes.set v i ((0 : U64).setWidth w))
      exact ⟨hrun, .behind hread hquiet⟩

/-- **A gather** fills the selected lanes with the values at their addresses, or is refused. -/
theorem run_gatherLoop (hm : ManagerOk cpu.memory) (hexc : cpu.context.hasException = false)
    (hsize : 0 < size) (left : ℕ) : ∀ (i : ℕ) (v : V),
    match cpu.lanePtrs false size (lanesFrom selected laneAddress left i) with
    | .ok _ => (gatherLoop lanes size selected laneAddress left i v).run viewOp cpu =
        (lanes.fill selected (fun i => (cpu.loadedLane size (laneAddress i)).setWidth w) left i v, cpu)
    | .error a => ∃ v', (gatherLoop lanes size selected laneAddress left i v).run viewOp cpu =
        (v', cpu.refused false a) := by
  induction left with
  | zero => exact fun _ _ => rfl
  | succ left ih =>
    intro i v
    unfold gatherLoop lanesFrom Lanes.fill Cpu.lanePtrs
    cases selected i with
    | false => exact ih (i + 1) v
    | true =>
      simp only [if_true, Program.run_bind, run_readMemory hm hexc hsize]
      cases hptrs : cpu.operandPtrs false (laneAddress i) size 0 with
      | error a =>
        have hpend := refused_hasException hexc (operandPtrs_error size hptrs)
        exact (gatherLoop_pending lanes size selected laneAddress hpend left (i + 1) _).1
      | ok ptrs =>
        have hvalue : cpu.loadedLane size (laneAddress i) = loadValue cpu.memory.host ptrs := by
          rw [Cpu.loadedLane, hptrs]
        have hrest := ih (i + 1) (lanes.set v i ((loadValue cpu.memory.host ptrs).setWidth w))
        cases hlanes : cpu.lanePtrs false size (lanesFrom selected laneAddress left (i + 1)) with
        | error a =>
          rw [hlanes] at hrest
          exact hrest
        | ok rest =>
          rw [hlanes] at hrest
          rw [hvalue]
          exact hrest

/-- What a gather loads and reports. -/
theorem traffic_gatherLoop (hm : ManagerOk cpu.memory) (hexc : cpu.context.hasException = false)
    (hsize : 0 < size) (left : ℕ) : ∀ (i : ℕ) (v : V), ∃ loaded reads,
      Traffic ((gatherLoop lanes size selected laneAddress left i v).calls viewOp cpu) loaded []
        reads [] ∧
      (∀ ptrs, cpu.lanePtrs false size (lanesFrom selected laneAddress left i) = .ok ptrs →
        loaded = ptrs ∧ reads = selectedOperands size (lanesFrom selected laneAddress left i)) ∧
      (∀ q ∈ loaded, ∃ a ∈ selectedBytes size (lanesFrom selected laneAddress left i),
        cpu.dataPtr false a = some q) ∧
      ∀ r ∈ reads, r ∈ selectedOperands size (lanesFrom selected laneAddress left i) := by
  induction left with
  | zero =>
    intro i v
    refine ⟨[], [], QuietTrace.nil, fun ptrs h => ⟨Except.ok.inj h, rfl⟩, ?_, fun r hr => hr⟩
    exact fun q hq => absurd hq List.not_mem_nil
  | succ left ih =>
    intro i v
    unfold gatherLoop lanesFrom
    cases selected i with
    | false => exact ih (i + 1) v
    | true =>
      have hfirst := traffic_readMemory hm hexc hsize (laneAddress i)
      simp only [if_true, calls_bind, run_readMemory hm hexc hsize]
      cases hptrs : cpu.operandPtrs false (laneAddress i) size 0 with
      | error a =>
        -- the lane is refused: the loop goes on without touching anything
        rw [hptrs] at hfirst
        obtain ⟨loaded, htraffic, hloaded⟩ := hfirst
        have hpend := refused_hasException hexc (operandPtrs_error size hptrs)
        have hquiet := (gatherLoop_pending lanes size selected laneAddress hpend left (i + 1)
          (lanes.set v i ((0 : U64).setWidth w))).2
        refine ⟨loaded, [], by simpa using htraffic.append hquiet, fun ptrs h => ?_, fun q hq => ?_,
          fun r hr => absurd hr List.not_mem_nil⟩
        · obtain ⟨first, -, hok, -⟩ := lanePtrs_cons_ok h
          cases hptrs.symm.trans hok
        · obtain ⟨b, hb, hptr⟩ := hloaded q hq
          exact ⟨b, List.mem_append_left _ hb, hptr⟩
      | ok ptrs =>
        rw [hptrs] at hfirst
        obtain ⟨loaded, reads, htraffic, hok, hloaded, hreads⟩ :=
          ih (i + 1) (lanes.set v i ((loadValue cpu.memory.host ptrs).setWidth w))
        refine ⟨ptrs ++ loaded, (laneAddress i, size) :: reads, hfirst.append htraffic,
          fun all h => ?_, fun q hq => ?_, fun r hr => ?_⟩
        · obtain ⟨first, rest, hfirst', hrest, rfl⟩ := lanePtrs_cons_ok h
          obtain rfl := Except.ok.inj (hptrs.symm.trans hfirst')
          obtain ⟨rfl, rfl⟩ := hok rest hrest
          exact ⟨rfl, rfl⟩
        · rcases List.mem_append.mp hq with hq | hq
          · obtain ⟨b, hb, hptr⟩ := operandPtrs_ok_range hptrs hq
            exact ⟨b, List.mem_append_left _ hb, hptr⟩
          · obtain ⟨b, hb, hptr⟩ := hloaded q hq
            exact ⟨b, List.mem_append_right _ hb, hptr⟩
        · rcases List.mem_cons.mp hr with rfl | hr
          · exact List.mem_cons_self
          · exact List.mem_cons_of_mem _ (hreads r hr)

theorem refused_gatherLoop (hm : ManagerOk cpu.memory) (hexc : cpu.context.hasException = false)
    (hsize : 0 < size) (left : ℕ) : ∀ (i : ℕ) (v : V),
    (gatherLoop lanes size selected laneAddress left i v).Along viewOp
      (RefusedAt (· ∈ selectedBytes size (lanesFrom selected laneAddress left i))) cpu := by
  induction left with
  | zero => exact fun _ _ => along_pure _ _
  | succ left ih =>
    intro i v
    unfold gatherLoop lanesFrom
    rw [selectedBytes_cons]
    cases selected i with
    | false => exact ih (i + 1) v
    | true =>
      simp only [if_true]
      refine along_bind.mpr ⟨(refused_readMemory hm hexc hsize (laneAddress i)).mono fun o s h =>
        h.mono fun a ha => List.mem_append_left _ (operandPtrs_error_range ha).1, ?_⟩
      rw [run_readMemory hm hexc hsize]
      cases hptrs : cpu.operandPtrs false (laneAddress i) size 0 with
      | error a => exact along_pending _ (refused_hasException hexc (operandPtrs_error size hptrs))
      | ok ptrs =>
        exact (ih (i + 1) _).mono fun o s h => h.mono fun a ha => List.mem_append_right _ ha

end Gather

end Cpueaxh
