/-
# Restoring saved floating-point state

What the images keep, what the four instructions do as a whole, and what is left of the
state behind a save and a restore.
-/
import Cpueaxh.FloatState

namespace Cpueaxh

open ByteOrder HostMemory

/-! ## Images -/

section Images

variable (vector vector' : VectorRegisters) (x87 x87' : X87State)

theorem fxsaveMm_length (value : U64) : (fxsaveMm value).length = 0x10 := by simp [fxsaveMm]

theorem fxsaveXmm_length (value : XMMRegister) : (fxsaveXmm value).length = 0x10 := by
  simp [fxsaveXmm]

theorem packFxsave_length : vector.packFxsave.length = sseStateFxImageSize := by
  simp [VectorRegisters.packFxsave, fxsaveX87Words, sseStateFxImageSize, List.length_flatMap,
    fxsaveMm_length, fxsaveXmm_length]

/-- The image from the `MMX` registers on, and from the `XMM` registers on. -/
theorem packFxsave_registers :
    vector.packFxsave.drop 0x20 =
        (List.finRange 8).flatMap (fun i => fxsaveMm (vector.mm i)) ++
          (List.finRange 16).flatMap (fun i => fxsaveXmm (vector.xmm i)) ∧
      vector.packFxsave.drop 0xA0 =
        (List.finRange 16).flatMap fun i => fxsaveXmm (vector.xmm i) := by
  have hmm : ((List.finRange 8).flatMap fun i => fxsaveMm (vector.mm i)).length = 0x80 := by
    simp [List.length_flatMap, fxsaveMm_length]
  have hfront : vector.packFxsave.drop 0x20 =
      (List.finRange 8).flatMap (fun i => fxsaveMm (vector.mm i)) ++
        (List.finRange 16).flatMap (fun i => fxsaveXmm (vector.xmm i)) := by
    rw [VectorRegisters.packFxsave, ← List.append_assoc, ← List.append_assoc]
    exact List.drop_left' (by simp [fxsaveX87Words])
  refine ⟨hfront, ?_⟩
  rw [show 0xA0 = 0x20 + 0x80 from rfl, ← List.drop_drop, hfront]
  exact List.drop_left' hmm

theorem field_mxcsr : field 32 vector.packFxsave 0x18 = vector.mxcsr &&& 0x0000FFFF :=
  field_of_drop (n := 4) rfl (List.drop_left' (by simp [fxsaveX87Words]))

theorem field_mm (i : Fin 8) : field 64 vector.packFxsave (0x20 + i.val * 0x10) = vector.mm i := by
  have hi : i.val < (List.finRange 8).length := by simp
  have harray := drop_flatMap (fun i => fxsaveMm_length (vector.mm i)) (List.finRange 8) i.val hi
  have hle : i.val * 0x10 ≤ ((List.finRange 8).flatMap fun i => fxsaveMm (vector.mm i)).length := by
    simp [List.length_flatMap, fxsaveMm_length]
    omega
  have hdrop : vector.packFxsave.drop (0x20 + i.val * 0x10) = littleEndianBytes 8 (vector.mm i) ++
      (littleEndianBytes 8 (0 : U64) ++ ((List.finRange 8).drop (i.val + 1)).flatMap (fun i =>
        fxsaveMm (vector.mm i)) ++ (List.finRange 16).flatMap fun i => fxsaveXmm (vector.xmm i)) := by
    rw [← List.drop_drop, (packFxsave_registers vector).1, List.drop_append_of_le_length hle, harray]
    simp [fxsaveMm]
  exact field_of_drop rfl hdrop

theorem drop_xmm (i : Fin 16) : vector.packFxsave.drop (0xA0 + i.val * 0x10) =
    fxsaveXmm (vector.xmm i) ++
      ((List.finRange 16).drop (i.val + 1)).flatMap fun i => fxsaveXmm (vector.xmm i) := by
  have hi : i.val < (List.finRange 16).length := by simp
  rw [← List.drop_drop, (packFxsave_registers vector).2,
    drop_flatMap (fun i => fxsaveXmm_length (vector.xmm i)) (List.finRange 16) i.val hi]
  simp

theorem field_xmm (i : Fin 16) :
    field 64 vector.packFxsave (0xA0 + i.val * 0x10) = (vector.xmm i).low ∧
      field 64 vector.packFxsave (0xA0 + i.val * 0x10 + 0x08) = (vector.xmm i).high := by
  have hdrop := drop_xmm vector i
  rw [fxsaveXmm, List.append_assoc] at hdrop
  have hhigh : vector.packFxsave.drop (0xA0 + i.val * 0x10 + 0x08) =
      littleEndianBytes 8 (vector.xmm i).high ++
        ((List.finRange 16).drop (i.val + 1)).flatMap fun i => fxsaveXmm (vector.xmm i) := by
    rw [← List.drop_drop, hdrop]
    exact List.drop_left' (littleEndianBytes_length _)
  exact ⟨field_of_drop rfl hdrop, field_of_drop rfl hhigh⟩

/-- **The image of `FXSAVE`** gives back the MMX and XMM registers, and `MXCSR` but for its
reserved bits. -/
theorem unpack_pack : vector'.unpackFxrstor vector.packFxsave =
    { vector' with
      mxcsr := vector.mxcsr &&& 0x0000FFFF
      mm := vector.mm
      xmm := vector.xmm } := by
  have hxmm : (fun i : Fin 16 => (⟨field 64 vector.packFxsave (0xA0 + i.val * 0x10),
      field 64 vector.packFxsave (0xA0 + i.val * 0x10 + 0x08)⟩ : XMMRegister)) = vector.xmm := by
    funext i
    rw [(field_xmm vector i).1, (field_xmm vector i).2]
  have hmm : (fun i : Fin 8 => field 64 vector.packFxsave (0x20 + i.val * 0x10)) = vector.mm :=
    funext (field_mm vector)
  have hmask : vector.mxcsr &&& 0x0000FFFF &&& 0x0000FFFF = vector.mxcsr &&& 0x0000FFFF := by
    rw [BitVec.and_assoc]
    rfl
  unfold VectorRegisters.unpackFxrstor
  rw [hxmm, hmm, field_mxcsr, hmask]

theorem envImage_length (operandSize : ℕ) :
    (x87.envImage operandSize).length = 7 * envEntrySize operandSize := by
  unfold X87State.envImage envEntrySize
  split_ifs <;> simp

/-- A pointer as far as an entry of the environment holds it. -/
def envPointer (operandSize : ℕ) (pointer : U64) : U64 :=
  if operandSize = 16 then (pointer.setWidth 16).setWidth 64 else (pointer.setWidth 32).setWidth 64

/-- **The image of `FNSTENV`** gives back the words of the x87 unit, and the pointers as far
as an entry holds them. -/
theorem readEnv_envImage (operandSize : ℕ) : x87'.readEnv operandSize (x87.envImage operandSize) =
    { x87 with
      instructionPointer := envPointer operandSize x87.instructionPointer
      dataPointer := envPointer operandSize x87.dataPointer
      pendingException := x87'.pendingException } := by
  have hword : ∀ value : U16, (value.setWidth 32).setWidth 16 = value := by
    intro value
    rw [BitVec.setWidth_setWidth_of_le _ (by decide), BitVec.setWidth_eq]
  have hopcode : ((x87.lastOpcode.setWidth 32 : U32) <<< 16 >>> 16).setWidth 16 =
      x87.lastOpcode := by
    ext i hi
    rw [BitVec.getElem_setWidth, BitVec.getLsbD_ushiftRight, BitVec.getLsbD_shiftLeft]
    simp [hi, show i < 32 by omega, show 16 + i < 32 by omega]
  unfold X87State.readEnv X87State.envImage envPointer
  by_cases hsize : operandSize = 16
  · have hfield := fun values i offset value => @field_array 16 2 rfl values i offset value
    simp only [hsize, if_true]
    rw [hfield _ 0 0x00 _ rfl rfl, hfield _ 1 0x02 _ rfl rfl, hfield _ 2 0x04 _ rfl rfl,
      hfield _ 3 0x06 _ rfl rfl, hfield _ 4 0x08 _ rfl rfl, hfield _ 5 0x0A _ rfl rfl]
  · have hfield := fun values i offset value => @field_array 32 4 rfl values i offset value
    simp only [hsize, if_false]
    rw [hfield _ 0 0x00 _ rfl rfl, hfield _ 1 0x04 _ rfl rfl, hfield _ 2 0x08 _ rfl rfl,
      hfield _ 3 0x0C _ rfl rfl, hfield _ 4 0x10 _ rfl rfl, hfield _ 5 0x14 _ rfl rfl,
      hword, hword, hword, hopcode]

end Images

/-! ## Runs -/

section Runs

variable {cpu : Cpu}

theorem run_notifyFields (type : HookType) (address : U64) (bytes : List U8) :
    ∀ fields, (notifyFields type address bytes fields).run viewOp cpu = ((), cpu)
  | [] => rfl
  | (offset, size) :: fields => by
    unfold notifyFields
    rw [Program.run_bind]
    exact run_notifyFields type address bytes fields

/-- **`FXSAVE`** writes its image behind the pointers of the area. -/
theorem run_sseStateWriteFxsave (hexc : cpu.context.hasException = false) {address : U64}
    (halign : address &&& 0x0F = 0) {cells : List HostPtr}
    (hcells : cpu.operandPtrs true address sseStateFxImageSize 0 = .ok cells) :
    (sseStateWriteFxsave address).run viewOp cpu =
      ((), cpu.setHost (commitHost cpu.memory.host cells cpu.context.vector.packFxsave)) := by
  unfold sseStateWriteFxsave sseStateValidateFxArea
  simp only [halign, ne_eq, not_true_eq_false, if_false, Program.run_bind, Program.run_pure,
    run_getContext, hexc, Bool.false_eq_true, run_resolveLinearWrite hexc, hcells,
    run_notifyFields, run_commitBytes]

/-- **`FXRSTOR`** refuses an area that is not aligned, cannot be read or has reserved bits in
its `MXCSR`, and otherwise takes the registers from it. -/
theorem run_sseStateReadFxrstor (hm : ManagerOk cpu.memory)
    (hexc : cpu.context.hasException = false) (address : U64) :
    (sseStateReadFxrstor address).run viewOp cpu =
      ((), if address &&& 0x0F ≠ 0 then cpu.raised .gp 0
        else
          match cpu.operandPtrs false address sseStateFxImageSize 0 with
          | .error a => cpu.refused false a
          | .ok cells =>
            let bytes := hostBytes cpu.memory.host cells
            if field 32 bytes 0x18 &&& 0xFFFF0000 ≠ 0 then cpu.raised .gp 0
            else
              { cpu with context :=
                { cpu.context with vector := cpu.context.vector.unpackFxrstor bytes } }) := by
  have hraised := raised_pending hexc .gp 0
  unfold sseStateReadFxrstor sseStateValidateFxArea
  by_cases halign : address &&& 0x0F = 0
  · simp only [halign, ne_eq, not_true_eq_false, if_false, Program.run_bind, Program.run_pure,
      run_cpuHasException, hexc, Bool.false_eq_true,
      run_readLinearBytes hm hexc (show 0 < sseStateFxImageSize by decide)]
    cases cpu.operandPtrs false address sseStateFxImageSize 0 with
    | error a => rfl
    | ok cells =>
      simp only [Program.run_bind, run_notifyFields]
      unfold sseStateValidateMxcsr
      by_cases hmxcsr : field 32 (hostBytes cpu.memory.host cells) 0x18 &&& 0xFFFF0000 = 0
      · simp only [hmxcsr, ne_eq, not_true_eq_false, if_false, Program.run_bind, Program.run_pure,
          run_cpuHasException, hexc, Bool.false_eq_true, run_notifyFields, run_modifyContext]
        rfl
      · simp only [hmxcsr, ne_eq, not_false_eq_true, if_true, Program.run_pure,
          run_cpuHasException, run_raiseGp, hraised]
  · simp only [halign, ne_eq, not_false_eq_true, if_true, Program.run_bind, Program.run_pure,
      run_cpuHasException, run_raiseGp, hraised]

/-- The exception of the check in front of an x87 instruction. -/
def CpuContext.x87Fault (ctx : CpuContext) (waiting : Bool) : Option RaisedFault :=
  if ctx.x87DeviceUnavailable then some .nm
  else if waiting && ctx.x87.pendingException then some .mf
  else none

theorem run_cpuX87Check (waiting : Bool) :
    (cpuX87Check waiting).run viewOp cpu =
      match cpu.context.x87Fault waiting with
      | some fault => (false, cpu.raised fault 0)
      | none => (true, cpu) := by
  unfold cpuX87Check CpuContext.x87Fault
  rw [Program.run_bind, run_getContext]
  by_cases hunavailable : cpu.context.x87DeviceUnavailable = true
  · simp only [hunavailable, if_true]
    rfl
  · simp only [hunavailable, Bool.false_eq_true, if_false]
    by_cases hwait : (waiting && cpu.context.x87.pendingException) = true
    · simp only [hwait, if_true]
      rfl
    · simp only [hwait, Bool.false_eq_true, if_false]
      rfl

theorem envSize_pos (operandSize : ℕ) : 0 < 7 * envEntrySize operandSize := by
  unfold envEntrySize
  split_ifs <;> decide

/-- **`FNSTENV`** writes its image behind the pointers of the area, and masks the exceptions. -/
theorem run_x87StoreEnv (hexc : cpu.context.hasException = false) {operandSize : ℕ}
    {waiting : Bool} (hready : cpu.context.x87Fault waiting = none) {address : U64}
    {cells : List HostPtr}
    (hcells : cpu.operandPtrs true address (7 * envEntrySize operandSize) 0 = .ok cells) :
    (x87StoreEnv operandSize waiting address).run viewOp cpu =
      ((), { cpu.setHost (commitHost cpu.memory.host cells
          (cpu.context.x87.envImage operandSize)) with
        context := { cpu.context with
          x87 := { cpu.context.x87 with
            controlWord := cpu.context.x87.controlWord ||| 0x003F }.recomputePendingException } }) := by
  unfold x87StoreEnv
  simp only [Program.run_bind, run_cpuX87Check, hready, Bool.not_true, Bool.false_eq_true, if_false,
    run_getContext, run_resolveLinearWrite hexc, hcells, run_notifyFields, run_commitBytes,
    run_modifyContext]
  rfl

/-- **`FLDENV`** is refused by the check or by the area, and otherwise takes the environment
from it. -/
theorem run_x87LoadEnv (hm : ManagerOk cpu.memory) (hexc : cpu.context.hasException = false)
    (operandSize : ℕ) (address : U64) :
    (x87LoadEnv operandSize address).run viewOp cpu =
      ((), match cpu.context.x87Fault true with
        | some fault => cpu.raised fault 0
        | none =>
          match cpu.operandPtrs false address (7 * envEntrySize operandSize) 0 with
          | .error a => cpu.refused false a
          | .ok cells =>
            { cpu with context := { cpu.context with
              x87 := (cpu.context.x87.readEnv operandSize
                (hostBytes cpu.memory.host cells)).recomputePendingException } }) := by
  unfold x87LoadEnv
  rw [Program.run_bind, run_cpuX87Check]
  cases cpu.context.x87Fault true with
  | some fault => rfl
  | none =>
    simp only [Bool.not_true, Bool.false_eq_true, if_false, Program.run_bind,
      run_readLinearBytes hm hexc (envSize_pos operandSize)]
    cases cpu.operandPtrs false address (7 * envEntrySize operandSize) 0 with
    | error a => rfl
    | ok cells =>
      simp only [Program.run_bind, run_notifyFields, run_modifyContext]
      rfl

/-! ## Faults -/

/-- An `FXRSTOR` that leaves an exception changes nothing else. -/
theorem failed_sseStateReadFxrstor (hm : ManagerOk cpu.memory)
    (hexc : cpu.context.hasException = false) (address : U64)
    (h : ((sseStateReadFxrstor address).run viewOp cpu).2.context.hasException = true) :
    cpu.Failed ((sseStateReadFxrstor address).run viewOp cpu).2 := by
  rw [run_sseStateReadFxrstor hm hexc] at h ⊢
  dsimp only at h ⊢
  split_ifs at h ⊢ with halign
  · exact failed_raised hexc .gp 0
  · cases hcells : cpu.operandPtrs false address sseStateFxImageSize 0 with
    | error a => exact failed_refused hexc (operandPtrs_error _ hcells)
    | ok cells =>
      rw [hcells] at h
      dsimp only at h ⊢
      split_ifs at h ⊢ with hmxcsr
      · exact failed_raised hexc .gp 0
      · exact absurd (hexc.symm.trans h) (by decide)

/-- An `FLDENV` that leaves an exception changes nothing else. -/
theorem failed_x87LoadEnv (hm : ManagerOk cpu.memory) (hexc : cpu.context.hasException = false)
    (operandSize : ℕ) (address : U64)
    (h : ((x87LoadEnv operandSize address).run viewOp cpu).2.context.hasException = true) :
    cpu.Failed ((x87LoadEnv operandSize address).run viewOp cpu).2 := by
  rw [run_x87LoadEnv hm hexc] at h ⊢
  dsimp only at h ⊢
  cases hfault : cpu.context.x87Fault true with
  | some fault => exact failed_raised hexc fault 0
  | none =>
    cases hcells : cpu.operandPtrs false address (7 * envEntrySize operandSize) 0 with
    | error a => exact failed_refused hexc (operandPtrs_error _ hcells)
    | ok cells =>
      rw [hfault, hcells] at h
      exact absurd (hexc.symm.trans h) (by decide)

end Runs

/-! ## Saving and restoring -/

/-- An area that can be written, through a pointer to a byte of its own for each byte. -/
structure SaveArea (cpu : Cpu) (address : U64) (size : ℕ) (cells : List HostPtr) : Prop where
  writable : cpu.operandPtrs true address size 0 = .ok cells
  distinct : cells.Nodup
  allocated : ∀ p ∈ cells, (cpu.memory.host.read p).isSome = true

/-- A later CPU that still finds the bytes of the area. -/
structure AreaKept (saved later : Cpu) (address : U64) (size : ℕ) (cells : List HostPtr) :
    Prop where
  readable : later.operandPtrs false address size 0 = .ok cells
  bytes : ∀ p ∈ cells, later.memory.host.read p = saved.memory.host.read p

/-- The bytes of an area are those that were written. -/
theorem SaveArea.hostBytes_kept {cpu saved later : Cpu} {address : U64} {size : ℕ}
    {cells : List HostPtr} {image : List U8} (harea : SaveArea cpu address size cells)
    (hkept : AreaKept saved later address size cells) (hlength : image.length = size)
    (hsaved : saved.memory.host = commitHost cpu.memory.host cells image) :
    hostBytes later.memory.host cells = image := by
  have hcells := operandPtrs_length size harea.writable
  rw [hostBytes_congr hkept.bytes, hsaved]
  exact hostBytes_commitHost cells image cpu.memory.host harea.distinct harea.allocated
    (hcells.trans hlength.symm)

/-- `FXRSTOR` behind `FXSAVE`. -/
theorem fxsave_fxrstor {saved later : Cpu} {address : U64} {cells : List HostPtr}
    (hm : MemoryOk saved.memory) (hm' : MemoryOk later.memory)
    (hexc : saved.context.hasException = false) (hexc' : later.context.hasException = false)
    (halign : address &&& 0x0F = 0) (harea : SaveArea saved address sseStateFxImageSize cells)
    (hkept : AreaKept ((sseStateWriteFxsave address).run cpuOp saved).2 later address
      sseStateFxImageSize cells) :
    ((sseStateReadFxrstor address).run cpuOp later).2.context =
      { later.context with vector := { later.context.vector with
          mxcsr := saved.context.vector.mxcsr &&& 0x0000FFFF
          mm := saved.context.vector.mm
          xmm := saved.context.vector.xmm } } := by
  have hhost := (run_viewOp (sseStateWriteFxsave address) hm).2.host_eq
  rw [run_sseStateWriteFxsave hexc halign harea.writable] at hhost
  have hbytes := harea.hostBytes_kept hkept (packFxsave_length _) hhost
  have hmask : saved.context.vector.mxcsr &&& 0x0000FFFF &&& 0xFFFF0000 = 0 := by
    rw [BitVec.and_assoc]
    exact BitVec.and_zero
  rw [(run_viewOp (sseStateReadFxrstor address) hm').2.context_eq,
    run_sseStateReadFxrstor hm'.manager hexc']
  simp only [halign, ne_eq, not_true_eq_false, if_false, hkept.readable, hbytes, field_mxcsr, hmask,
    unpack_pack]

/-- `FLDENV` behind `FNSTENV`. -/
theorem fnstenv_fldenv {saved later : Cpu} {address : U64} {cells : List HostPtr}
    {operandSize : ℕ} {waiting : Bool}
    (hm : MemoryOk saved.memory) (hm' : MemoryOk later.memory)
    (hexc : saved.context.hasException = false) (hexc' : later.context.hasException = false)
    (hready : saved.context.x87Fault waiting = none) (hready' : later.context.x87Fault true = none)
    (harea : SaveArea saved address (7 * envEntrySize operandSize) cells)
    (hkept : AreaKept ((x87StoreEnv operandSize waiting address).run cpuOp saved).2 later address
      (7 * envEntrySize operandSize) cells) :
    ((x87LoadEnv operandSize address).run cpuOp later).2.context =
      { later.context with x87 := { saved.context.x87 with
          instructionPointer := envPointer operandSize saved.context.x87.instructionPointer
          dataPointer := envPointer operandSize saved.context.x87.dataPointer
          }.recomputePendingException } := by
  have hhost := (run_viewOp (x87StoreEnv operandSize waiting address) hm).2.host_eq
  rw [run_x87StoreEnv hexc hready harea.writable] at hhost
  have hbytes := harea.hostBytes_kept hkept (envImage_length _ _) hhost
  rw [(run_viewOp (x87LoadEnv operandSize address) hm').2.context_eq,
    run_x87LoadEnv hm'.manager hexc']
  simp only [hready', hkept.readable, hbytes, readEnv_envImage]
  rfl

/-- The context behind an exception: the registers are the same, but for `CR2`. -/
def CpuContext.FaultOnly (ctx after : CpuContext) : Prop :=
  ∃ exception cr2, after = { ctx with
    exception := exception
    controlRegs := Function.update ctx.controlRegs regCr2 cr2 }

theorem Cpu.Failed.faultOnly {cpu cpu' : Cpu} (h : cpu.Failed cpu') :
    cpu.context.FaultOnly cpu'.context := by
  obtain ⟨exception, cr2, asked, hsame⟩ := h.same
  exact ⟨exception, cr2, by rw [hsame]⟩

/-- **Saved floating-point state.**  `FXRSTOR` gives back the MMX and XMM registers of
`FXSAVE`, and `MXCSR` but for its reserved bits.  `FLDENV` gives back the x87 words of
`FNSTENV`, and the pointers as far as the image holds them.  An `FXRSTOR` or `FLDENV` with an
exception leaves the registers alone. -/
theorem saved_state_restores :
    (∀ (saved later : Cpu) (address : U64) (cells : List HostPtr),
      MemoryOk saved.memory → MemoryOk later.memory →
      saved.context.hasException = false → later.context.hasException = false →
      address &&& 0x0F = 0 → SaveArea saved address sseStateFxImageSize cells →
      AreaKept ((sseStateWriteFxsave address).run cpuOp saved).2 later address
        sseStateFxImageSize cells →
      ((sseStateReadFxrstor address).run cpuOp later).2.context.hasException = false ∧
        ((sseStateReadFxrstor address).run cpuOp later).2.context.vector =
          { later.context.vector with
            mxcsr := saved.context.vector.mxcsr &&& 0x0000FFFF
            mm := saved.context.vector.mm
            xmm := saved.context.vector.xmm }) ∧
    (∀ (saved later : Cpu) (address : U64) (cells : List HostPtr) (operandSize : ℕ)
        (waiting : Bool), MemoryOk saved.memory → MemoryOk later.memory →
      saved.context.hasException = false → later.context.hasException = false →
      saved.context.x87Fault waiting = none → later.context.x87Fault true = none →
      SaveArea saved address (7 * envEntrySize operandSize) cells →
      AreaKept ((x87StoreEnv operandSize waiting address).run cpuOp saved).2 later address
        (7 * envEntrySize operandSize) cells →
      ((x87LoadEnv operandSize address).run cpuOp later).2.context.hasException = false ∧
        ((x87LoadEnv operandSize address).run cpuOp later).2.context.x87 =
          { saved.context.x87 with
            instructionPointer := envPointer operandSize saved.context.x87.instructionPointer
            dataPointer := envPointer operandSize saved.context.x87.dataPointer
            }.recomputePendingException) ∧
    ∀ (later : Cpu) (address : U64) (operandSize : ℕ), MemoryOk later.memory →
      later.context.hasException = false →
      (((sseStateReadFxrstor address).run cpuOp later).2.context.hasException = true →
        later.context.FaultOnly ((sseStateReadFxrstor address).run cpuOp later).2.context) ∧
      (((x87LoadEnv operandSize address).run cpuOp later).2.context.hasException = true →
        later.context.FaultOnly ((x87LoadEnv operandSize address).run cpuOp later).2.context) := by
  refine ⟨?_, ?_, ?_⟩
  · intro saved later address cells hm hm' hexc hexc' halign harea hkept
    rw [fxsave_fxrstor hm hm' hexc hexc' halign harea hkept]
    exact ⟨hexc', rfl⟩
  · intro saved later address cells operandSize waiting hm hm' hexc hexc' hready hready' harea hkept
    rw [fnstenv_fldenv hm hm' hexc hexc' hready hready' harea hkept]
    exact ⟨hexc', rfl⟩
  · intro later address operandSize hm hexc
    rw [(run_viewOp (sseStateReadFxrstor address) hm).2.context_eq,
      (run_viewOp (x87LoadEnv operandSize address) hm).2.context_eq]
    exact ⟨fun h => (failed_sseStateReadFxrstor hm.manager hexc address h).faultOnly,
      fun h => (failed_x87LoadEnv hm.manager hexc operandSize address h).faultOnly⟩

/-! ## An area in host memory -/

/-- A CPU over host memory, with a control word and an instruction pointer of the x87 unit. -/
def floatCpu : Cpu :=
  hostCpu { initCpuContext false with
    x87 := { X87State.initial with controlWord := 0x027F, instructionPointer := 0x12345 } } fun _ => 0

/-- The bytes of an area at `0x1000`. -/
def floatCells (size : ℕ) : List HostPtr := consecutive (.user 0x1000) size 0

theorem saveArea_fxsave : SaveArea floatCpu 0x1000 sseStateFxImageSize
    (floatCells sseStateFxImageSize) where
  writable := by decide +kernel
  distinct := consecutive_nodup _ _ (by decide)
  allocated := by decide +kernel

theorem saveArea_fnstenv : SaveArea floatCpu 0x1000 14 (floatCells 14) where
  writable := by decide +kernel
  distinct := consecutive_nodup _ _ (by decide)
  allocated := by decide +kernel

/-- A CPU with the memory behind a program and other registers, in the same mode, keeps an area
that can be read. -/
theorem areaKept_registers {α : Type} {saved : Cpu} {p : CpuProgram α} {ctx : CpuContext}
    {address : U64} {size : ℕ} {cells : List HostPtr}
    (hcode : ctx.is64BitCode = saved.context.is64BitCode) (huser : ctx.isUser = saved.context.isUser)
    (hread : saved.operandPtrs false address size 0 = .ok cells) :
    AreaKept (p.run cpuOp saved).2 { (p.run cpuOp saved).2 with context := ctx } address size
      cells where
  readable := by
    rw [← hread]
    refine operandPtrs_congr (fun a => ?_) size 0
    unfold Cpu.dataPtr grantedPtr
    dsimp only
    rw [hcode, huser, (GuestFrame.cpuProgram p saved).memory.accessView_eq]
  bytes := fun _ _ => rfl

/-- The CPU behind a save at `0x1000`, with the registers of a reset. -/
def floatLater (save : U64 → CpuProgram Unit) : Cpu :=
  { ((save 0x1000).run cpuOp floatCpu).2 with context := initCpuContext false }

theorem memoryOk_floatCpu : MemoryOk floatCpu.memory := memoryOk_hostCpu _ _

theorem memoryOk_floatLater (save : U64 → CpuProgram Unit) : MemoryOk (floatLater save).memory :=
  (run_viewOp (save 0x1000) memoryOk_floatCpu).2.ok

theorem areaKept_floatLater (save : U64 → CpuProgram Unit) {size : ℕ} {cells : List HostPtr}
    (hread : floatCpu.operandPtrs false 0x1000 size 0 = .ok cells) :
    AreaKept ((save 0x1000).run cpuOp floatCpu).2 (floatLater save) 0x1000 size cells :=
  areaKept_registers rfl rfl hread

theorem saved_state_restores_example :
    (((sseStateReadFxrstor 0x1000).run cpuOp (floatLater sseStateWriteFxsave)).2.context.vector.mm
        = floatCpu.context.vector.mm) ∧
      (((x87LoadEnv 16 0x1000).run cpuOp
          (floatLater (x87StoreEnv 16 false))).2.context.x87.controlWord = 0x027F) ∧
      floatCpu.context.FaultOnly ((sseStateReadFxrstor 0x1008).run cpuOp floatCpu).2.context := by
  obtain ⟨hfx, henv, hfault⟩ := saved_state_restores
  refine ⟨?_, ?_, ?_⟩
  · have hrestored := hfx floatCpu (floatLater sseStateWriteFxsave) 0x1000 _ memoryOk_floatCpu
      (memoryOk_floatLater _) rfl rfl (by decide) saveArea_fxsave
      (areaKept_floatLater _ (by decide +kernel))
    rw [hrestored.2]
  · have hrestored := henv floatCpu (floatLater (x87StoreEnv 16 false)) 0x1000 _ 16 false
      memoryOk_floatCpu (memoryOk_floatLater _) rfl rfl (by decide) (by decide)
      saveArea_fnstenv (areaKept_floatLater _ (by decide +kernel))
    rw [hrestored.2]
    rfl
  · refine (hfault floatCpu 0x1008 16 memoryOk_floatCpu rfl).1 ?_
    rw [(run_viewOp (sseStateReadFxrstor 0x1008) memoryOk_floatCpu).2.context_eq,
      run_sseStateReadFxrstor memoryOk_floatCpu.manager rfl]
    rfl

/-- `FXRSTOR` does not give back the control word of the x87 unit, and `FLDENV` with a 16-bit
image not the high bits of its pointers. -/
theorem saved_state_differs :
    ((sseStateReadFxrstor 0x1000).run cpuOp
        (floatLater sseStateWriteFxsave)).2.context.x87.controlWord ≠
          floatCpu.context.x87.controlWord ∧
      ((x87LoadEnv 16 0x1000).run cpuOp
        (floatLater (x87StoreEnv 16 false))).2.context.x87.instructionPointer ≠
          floatCpu.context.x87.instructionPointer := by
  constructor
  · rw [fxsave_fxrstor memoryOk_floatCpu (memoryOk_floatLater _) rfl rfl (by decide)
      saveArea_fxsave (areaKept_floatLater _ (by decide +kernel))]
    decide
  · have hkept : AreaKept ((x87StoreEnv 16 false 0x1000).run cpuOp floatCpu).2
        (floatLater (x87StoreEnv 16 false)) 0x1000 (7 * envEntrySize 16) (floatCells 14) :=
      areaKept_floatLater _ (by decide +kernel)
    rw [fnstenv_fldenv memoryOk_floatCpu (memoryOk_floatLater _) rfl rfl (by decide) (by decide)
      saveArea_fnstenv hkept]
    decide

end Cpueaxh
