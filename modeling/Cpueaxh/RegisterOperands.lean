/-
# Register and memory operands

The operands of the integer instructions: the general registers at their sizes, and the
operand that a ModRM byte names, which is a register or lies in memory.  The functions
`decode_*_rm_index`, `decode_*_reg_index`, `read_*_rm_operand` and `write_*_rm_operand` of the
single instructions are the same but for their names.
-/
import Cpueaxh.StringElement
import Cpueaxh.EffectiveAddress
import Cpueaxh.RegisterWords

namespace Cpueaxh

open HostMemory

def regRdx : Fin 16 := 2

/-! ## Registers -/

/-- The operand sizes of the integer instructions. -/
inductive OperandWidth where
  | byte | word | dword | qword
  deriving DecidableEq, Repr

/-- The number of bits. -/
def OperandWidth.bits : OperandWidth → ℕ
  | byte => 8
  | word => 16
  | dword => 32
  | qword => 64

/-- `get_reg8`. -/
def getReg8 (ctx : CpuContext) (reg : Fin 16) : U8 :=
  if ctx.prefixBits.rexPresent then (ctx.regs reg &&& 0xFF).setWidth 8
  else if reg < 4 then (ctx.regs reg &&& 0xFF).setWidth 8
  else ((ctx.regs (reg - 4) >>> 8) &&& 0xFF).setWidth 8

/-- `set_reg8`. -/
def setReg8 (ctx : CpuContext) (reg : Fin 16) (value : U8) : CpuContext :=
  if ctx.prefixBits.rexPresent = true ∨ reg < 4 then
    let merged := (ctx.regs reg &&& ~~~(0xFF : U64)) ||| value.setWidth 64
    { ctx with regs := Function.update ctx.regs reg merged }
  else
    let merged := (ctx.regs (reg - 4) &&& ~~~(0xFF00 : U64)) ||| value.setWidth 64 <<< 8
    { ctx with regs := Function.update ctx.regs (reg - 4) merged }

/-- `get_reg8`, `get_reg16`, `get_reg32` and `get_reg64` for their sizes. -/
def getRegister (size : OperandWidth) (ctx : CpuContext) (reg : Fin 16) : U64 :=
  match size with
  | .byte => (getReg8 ctx reg).setWidth 64
  | size => getReg size.bits ctx reg

/-- `set_reg8`, `set_reg16`, `set_reg32` and `set_reg64` for their sizes. -/
def setRegister (size : OperandWidth) (ctx : CpuContext) (reg : Fin 16) (value : U64) :
    CpuContext :=
  match size with
  | .byte => setReg8 ctx reg (value.setWidth 8)
  | size => setReg size.bits ctx reg value

/-- `get_rol_operand_mask` and its like. -/
def operandMask : OperandWidth → U64
  | .byte => 0xFF
  | .word => 0xFFFF
  | .dword => 0xFFFFFFFF
  | .qword => 0xFFFFFFFFFFFFFFFF

/-- `get_rol_sign_mask` and its like. -/
def signMask : OperandWidth → U64
  | .byte => 0x80
  | .word => 0x8000
  | .dword => 0x80000000
  | .qword => 0x8000000000000000

/-- `get_rol_count_mask` and its like. -/
def countMask (size : OperandWidth) : U8 := if size = .qword then 0x3F else 0x1F

/-- The count of a shift or a rotate under its mask. -/
def maskedCount (size : OperandWidth) (rawCount : U8) : ℕ := (rawCount &&& countMask size).toNat

/-- The register of the `rm` field. -/
def decodeRmIndex (ctx : CpuContext) (modrm : U8) : Fin 16 :=
  CpuContext.reg (if ctx.prefixBits.rexB then rmField modrm ||| 0x08 else rmField modrm)

/-- The register of the `reg` field. -/
def decodeRegIndex (ctx : CpuContext) (modrm : U8) : Fin 16 :=
  CpuContext.reg (if ctx.prefixBits.rexR then regField modrm ||| 0x08 else regField modrm)

/-! ## The operand of a ModRM byte -/

/-- An operand behind its decoder: the ModRM byte and `mem_address`. -/
structure RmOperand where
  modrm : U8
  memAddress : U64
  deriving DecidableEq, Repr

/-- The operand is a register. -/
def RmOperand.isRegister (op : RmOperand) : Bool := modField op.modrm == 3

/-- `read_memory_operand`. -/
def readMemoryOperand (address : U64) (size : OperandWidth) : CpuProgram U64 :=
  readStringValue address size.bits

/-- `write_memory_operand`. -/
def writeMemoryOperand (address : U64) (size : OperandWidth) (value : U64) : CpuProgram Unit :=
  writeStringValue address size.bits value

/-- Read the operand of a ModRM byte. -/
def readRmOperand (op : RmOperand) (size : OperandWidth) : CpuProgram U64 :=
  if op.isRegister then do
    let ctx ← getContext
    return getRegister size ctx (decodeRmIndex ctx op.modrm)
  else readMemoryOperand op.memAddress size

/-- Write the operand of a ModRM byte. -/
def writeRmOperand (op : RmOperand) (size : OperandWidth) (value : U64) : CpuProgram Unit :=
  if op.isRegister then
    modifyContext fun ctx => setRegister size ctx (decodeRmIndex ctx op.modrm) value
  else writeMemoryOperand op.memAddress size value

/-! ## What they do -/

namespace Cpu

variable (cpu : Cpu)

/-- The value of the operand, or the CPU behind its refused byte. -/
def rmValue (op : RmOperand) (size : OperandWidth) : Except Cpu U64 :=
  if op.isRegister then
    .ok (getRegister size cpu.context (decodeRmIndex cpu.context op.modrm))
  else cpu.loadAt (size.bits / 8) op.memAddress

/-- The CPU with the operand written. -/
def rmStored (op : RmOperand) (size : OperandWidth) (value : U64) : Except Cpu Cpu :=
  if op.isRegister then
    .ok (cpu.edit fun ctx => setRegister size ctx (decodeRmIndex ctx op.modrm) value)
  else cpu.storedAt (size.bits / 8) op.memAddress value

end Cpu

variable {cpu : Cpu}

theorem OperandWidth.eight_le (size : OperandWidth) : 8 ≤ size.bits := by
  cases size <;> decide

theorem OperandWidth.le_sixtyFour (size : OperandWidth) : size.bits ≤ 64 := by
  cases size <;> decide

theorem OperandWidth.bits_eq_eight_mul (size : OperandWidth) : 8 * (size.bits / 8) = size.bits := by
  cases size <;> decide

theorem operandMask_eq (size : OperandWidth) :
    operandMask size = (BitVec.allOnes size.bits).setWidth 64 := by
  cases size <;> decide

theorem getLsbD_operandMask (size : OperandWidth) (i : ℕ) :
    (operandMask size).getLsbD i = decide (i < size.bits) := by
  have hle := size.le_sixtyFour
  rw [operandMask_eq, BitVec.getLsbD_setWidth, BitVec.getLsbD_allOnes]
  by_cases h : i < size.bits
  · rw [decide_eq_true h, decide_eq_true (show i < 64 by omega), Bool.true_and]
  · rw [decide_eq_false h, Bool.and_false]

theorem signMask_eq (size : OperandWidth) : signMask size = BitVec.twoPow 64 (size.bits - 1) := by
  cases size <;> decide

/-- The sign of a word of a size. -/
theorem and_signMask_ne_zero (size : OperandWidth) (x : BitVec size.bits) :
    (x.setWidth 64 &&& signMask size != 0) = x.msb := by
  have height := size.eight_le
  have hle := size.le_sixtyFour
  rw [signMask_eq, SubtractionFlags.and_twoPow_ne_zero _ (by omega), BitVec.getLsbD_setWidth,
    BitVec.msb_eq_getLsbD_last, decide_eq_true (by omega), Bool.true_and]

/-- The zero test of a word of a size. -/
theorem setWidth_beq_zero (size : OperandWidth) (x : BitVec size.bits) :
    (x.setWidth 64 == 0) = decide (x = 0) := by
  rw [Bool.eq_iff_iff, beq_iff_eq, decide_eq_true_iff]
  constructor
  · intro h
    have hback := congrArg (BitVec.setWidth size.bits) h
    rw [BitVec.setWidth_setWidth_of_le _ size.le_sixtyFour, BitVec.setWidth_eq] at hback
    exact hback.trans (BitVec.setWidth_zero _ _)
  · intro h
    rw [h]
    exact BitVec.setWidth_zero _ _

/-- The parity of a word of a size. -/
theorem calcParity_setWidth (size : OperandWidth) (x : BitVec size.bits) :
    calcParity ((x.setWidth 64).setWidth 8) = SubtractionFlags.evenParity x := by
  rw [BitVec.setWidth_setWidth_of_le _ (show 8 ≤ 64 by decide)]
  exact calcParity_lowByte x

/-- A value with the bits of its size only is a word of the size. -/
theorem eq_setWidth {size : OperandWidth} {value : U64} (h : value.toNat < 2 ^ size.bits) :
    value = (value.setWidth size.bits).setWidth 64 := by
  apply BitVec.eq_of_toNat_eq
  rw [BitVec.toNat_setWidth, BitVec.toNat_setWidth, Nat.mod_eq_of_lt h,
    Nat.mod_eq_of_lt value.isLt]

theorem and_operandMask {size : OperandWidth} {value : U64} (h : value.toNat < 2 ^ size.bits) :
    value &&& operandMask size = value := by
  rw [eq_setWidth h, operandMask_eq]
  apply BitVec.eq_of_getLsbD_eq
  intro i hi
  rw [BitVec.getLsbD_and, BitVec.getLsbD_setWidth, BitVec.getLsbD_setWidth,
    BitVec.getLsbD_setWidth, BitVec.getLsbD_allOnes]
  generalize decide (i < size.bits) = inSize
  cases inSize <;> simp [hi]

/-- A register of a size has the bits of the size only. -/
theorem getRegister_lt (size : OperandWidth) (ctx : CpuContext) (reg : Fin 16) :
    (getRegister size ctx reg).toNat < 2 ^ size.bits := by
  cases size with
  | byte =>
    show ((getReg8 ctx reg).setWidth 64).toNat < 2 ^ 8
    rw [BitVec.toNat_setWidth]
    exact lt_of_le_of_lt (Nat.mod_le _ _) (getReg8 ctx reg).isLt
  | word =>
    show (ctx.regs reg &&& 0xFFFF).toNat < 2 ^ 16
    rw [BitVec.toNat_and]
    exact Nat.and_lt_two_pow _ (by decide)
  | dword =>
    show (ctx.regs reg &&& 0xFFFFFFFF).toNat < 2 ^ 32
    rw [BitVec.toNat_and]
    exact Nat.and_lt_two_pow _ (by decide)
  | qword => exact (getReg 64 ctx reg).isLt

/-- A merged byte, behind a shift. -/
theorem merged_byte (old : U64) (value : U8) {shift : ℕ} (hshift : shift < 9) :
    ((((old &&& ~~~((0xFF : U64) <<< shift)) ||| value.setWidth 64 <<< shift) >>> shift) &&&
      0xFF).setWidth 8 = value := by
  apply BitVec.eq_of_getLsbD_eq
  intro i hi
  have hmask : ∀ j, (0xFF : U64).getLsbD j = decide (j < 8) := getLsbD_operandMask .byte
  rw [BitVec.getLsbD_setWidth, BitVec.getLsbD_and, BitVec.getLsbD_ushiftRight, BitVec.getLsbD_or,
    BitVec.getLsbD_and, BitVec.getLsbD_not, BitVec.getLsbD_shiftLeft, BitVec.getLsbD_shiftLeft,
    hmask, hmask, Nat.add_sub_cancel_left, BitVec.getLsbD_setWidth, decide_eq_true hi,
    decide_eq_true (show shift + i < 64 by omega), decide_eq_true (show i < 64 by omega),
    decide_eq_false (show ¬ shift + i < shift by omega)]
  simp

/-- A register behind a write of its size. -/
theorem getRegister_written (size : OperandWidth) (ctx : CpuContext) (reg : Fin 16) {value : U64}
    (hvalue : value.toNat < 2 ^ size.bits) :
    getRegister size (setRegister size ctx reg value) reg = value := by
  have hwide : ∀ n, n = 16 ∨ n = 32 ∨ n = 64 → value.toNat < 2 ^ n →
      getReg n (setReg n ctx reg value) reg = value := by
    intro n hn hlt
    unfold getReg setReg
    dsimp only
    rw [Function.update_self, truncateTo_regMerge hn]
    apply BitVec.eq_of_toNat_eq
    rw [truncateTo_toNat hn, Nat.mod_eq_of_lt hlt]
  -- a byte register may be the upper byte of another one
  cases size with
  | byte =>
    have hback : (value.setWidth 8).setWidth 64 = value := by
      change value.toNat < 2 ^ 8 at hvalue
      apply BitVec.eq_of_toNat_eq
      rw [BitVec.toNat_setWidth, BitVec.toNat_setWidth, Nat.mod_eq_of_lt hvalue,
        Nat.mod_eq_of_lt value.isLt]
    show (getReg8 (setReg8 ctx reg (value.setWidth 8)) reg).setWidth 64 = value
    refine Eq.trans (congrArg _ ?_) hback
    generalize value.setWidth 8 = low
    -- without a `REX` prefix the registers from the fourth on are the upper bytes
    by_cases hlow : ctx.prefixBits.rexPresent = true ∨ reg < 4
    · have hread : getReg8 (setReg8 ctx reg low) reg =
          (((ctx.regs reg &&& ~~~(0xFF : U64)) ||| low.setWidth 64) &&& 0xFF).setWidth 8 := by
        unfold getReg8 setReg8
        rw [if_pos hlow]
        dsimp only
        rw [Function.update_self]
        by_cases hrex : ctx.prefixBits.rexPresent = true
        · rw [if_pos hrex]
        · rw [if_neg hrex, if_pos (hlow.resolve_left hrex)]
      have hmerged := merged_byte (ctx.regs reg) low (by decide : 0 < 9)
      rw [BitVec.shiftLeft_zero, BitVec.shiftLeft_zero, BitVec.ushiftRight_zero] at hmerged
      rw [hread, hmerged]
    · have hread : getReg8 (setReg8 ctx reg low) reg =
          ((((ctx.regs (reg - 4) &&& ~~~(0xFF00 : U64)) ||| low.setWidth 64 <<< 8) >>> 8) &&&
            0xFF).setWidth 8 := by
        unfold getReg8 setReg8
        rw [if_neg hlow]
        dsimp only
        rw [Function.update_self, if_neg fun h => hlow (Or.inl h), if_neg fun h => hlow (Or.inr h)]
      have hmask : (0xFF00 : U64) = (0xFF : U64) <<< 8 := by decide
      rw [hread, hmask, merged_byte (ctx.regs (reg - 4)) low (by decide : 8 < 9)]
  | word => exact hwide 16 (by decide) hvalue
  | dword => exact hwide 32 (by decide) hvalue
  | qword => exact hwide 64 (by decide) hvalue

/-- The value of an operand has the bits of its size only. -/
theorem rmValue_lt {op : RmOperand} {size : OperandWidth} {value : U64}
    (h : cpu.rmValue op size = .ok value) : value.toNat < 2 ^ size.bits := by
  unfold Cpu.rmValue at h
  split_ifs at h
  · cases h
    exact getRegister_lt size _ _
  · rw [← size.bits_eq_eight_mul]
    exact loadAt_lt h

/-- Writing a register changes the registers only. -/
theorem setRegister_frame (size : OperandWidth) (ctx : CpuContext) (reg : Fin 16) (value : U64) :
    setRegister size ctx reg value = { ctx with regs := (setRegister size ctx reg value).regs } := by
  cases size with
  | byte =>
    unfold setRegister setReg8
    simp only
    split_ifs <;> rfl
  | word => rfl
  | dword => rfl
  | qword => rfl

theorem keepMode_setRegister (size : OperandWidth) (ctx : CpuContext) (reg : Fin 16)
    (value : U64) :
    ctx.keepMode (setRegister size ctx reg value) = setRegister size ctx reg value := by
  rw [setRegister_frame]
  rfl

theorem clean_rmValue (hexc : cpu.context.hasException = false) (op : RmOperand)
    (size : OperandWidth) : cpu.Clean (cpu.rmValue op size) := by
  unfold Cpu.rmValue
  split_ifs
  · exact .ok _
  · exact clean_loadAt hexc _ _

theorem clean_rmStored (hexc : cpu.context.hasException = false) (op : RmOperand)
    (size : OperandWidth) (value : U64) : cpu.Clean (cpu.rmStored op size value) := by
  unfold Cpu.rmStored
  split_ifs
  · exact .ok _
  · exact clean_storedAt hexc _ _ _

/-- **Reading an operand.** -/
theorem run_readRmOperand (hm : ManagerOk cpu.memory) (hexc : cpu.context.hasException = false)
    (op : RmOperand) (size : OperandWidth) :
    (readRmOperand op size).run viewOp cpu =
      match cpu.rmValue op size with
      | .error c => (0, c)
      | .ok value => (value, cpu) := by
  unfold readRmOperand Cpu.rmValue
  split_ifs
  · rfl
  · exact run_readStringValue hm hexc size.eight_le _

/-- **Writing an operand.** -/
theorem run_writeRmOperand (hm : ManagerOk cpu.memory) (hexc : cpu.context.hasException = false)
    (op : RmOperand) (size : OperandWidth) (value : U64) :
    (writeRmOperand op size value).run viewOp cpu = transferred (cpu.rmStored op size value) := by
  unfold writeRmOperand Cpu.rmStored
  split_ifs
  · rw [run_modifyContext, keepMode_setRegister]
    rfl
  · exact run_writeStringValue hm hexc size.eight_le _ _

/-- Writing an operand changes the registers or the memory only. -/
theorem rmStored_frame {op : RmOperand} {size : OperandWidth} {value : U64} {stored : Cpu}
    (h : cpu.rmStored op size value = .ok stored) :
    ∃ regs host, stored = (cpu.setHost host).edit fun ctx => { ctx with regs := regs } := by
  unfold Cpu.rmStored at h
  split_ifs at h
  · cases h
    have hframe := setRegister_frame size cpu.context (decodeRmIndex cpu.context op.modrm) value
    exact ⟨(setRegister size cpu.context (decodeRmIndex cpu.context op.modrm) value).regs,
      cpu.memory.host, congrArg (fun ctx => { cpu with context := ctx }) hframe⟩
  · unfold Cpu.storedAt at h
    cases hptrs : cpu.slotPtrs op.memAddress (size.bits / 8) with
    | error c =>
      rw [hptrs] at h
      cases h
    | ok ptrs =>
      rw [hptrs] at h
      cases h
      exact ⟨cpu.context.regs, storeBytes cpu.memory.host ptrs value, rfl⟩

/-- A written operand leaves no exception behind. -/
theorem rmStored_hasException (hexc : cpu.context.hasException = false) {op : RmOperand}
    {size : OperandWidth} {value : U64} {stored : Cpu} (h : cpu.rmStored op size value = .ok stored) :
    stored.context.hasException = false := by
  obtain ⟨regs, host, rfl⟩ := rmStored_frame h
  exact hexc

/-- Writing an operand keeps the flags. -/
theorem rmStored_rflags {op : RmOperand} {size : OperandWidth} {value : U64} {stored : Cpu}
    (h : cpu.rmStored op size value = .ok stored) :
    stored.context.rflags = cpu.context.rflags := by
  obtain ⟨regs, host, rfl⟩ := rmStored_frame h
  rfl

/-- Writing an operand in front of a rest that does nothing under an exception. -/
theorem run_rmWriteThen (hm : ManagerOk cpu.memory) (hexc : cpu.context.hasException = false)
    (op : RmOperand) (size : OperandWidth) (value : U64) {rest : CpuProgram Unit}
    {g : CpuContext → CpuContext}
    (hpending : ∀ c : Cpu, c.context.hasException = true → rest.run viewOp c = ((), c))
    (hclear : ∀ c : Cpu, c.context.hasException = false →
      rest.run viewOp c = ((), c.edit g)) :
    (do
      writeRmOperand op size value
      rest : CpuProgram Unit).run viewOp cpu =
      transferred (do
        let stored ← cpu.rmStored op size value
        return stored.edit g) := by
  rw [Program.run_bind, run_writeRmOperand hm hexc]
  have hclean := clean_rmStored hexc op size value
  have hstored := fun stored => @rmStored_hasException cpu hexc op size value stored
  generalize cpu.rmStored op size value = e at hclean hstored ⊢
  cases hclean with
  | error hfailed => exact hpending _ hfailed.pending
  | ok stored => exact hclear stored (hstored stored rfl)

/-- Writing an operand in front of a change of the context that heeds exceptions. -/
theorem run_rmWrite (hm : ManagerOk cpu.memory) (hexc : cpu.context.hasException = false)
    (op : RmOperand) (size : OperandWidth) (value : U64) {f g : CpuContext → CpuContext}
    (hpending : ∀ ctx, ctx.hasException = true → f ctx = ctx)
    (hclear : ∀ ctx, ctx.hasException = false → f ctx = g ctx)
    (hkeep : ∀ ctx, ctx.keepMode (f ctx) = f ctx) :
    (do
      writeRmOperand op size value
      modifyContext f : CpuProgram Unit).run viewOp cpu =
      transferred (do
        let stored ← cpu.rmStored op size value
        return stored.edit g) := by
  refine run_rmWriteThen hm hexc op size value (fun c hc => ?_) fun c hc => ?_
  · rw [run_modifyContext, hkeep, hpending _ hc]
  · rw [run_modifyContext, hkeep, hclear _ hc]
    rfl

/-- Writing an operand in front of a change of the context, behind a check. -/
theorem run_rmWriteChecked (hm : ManagerOk cpu.memory) (hexc : cpu.context.hasException = false)
    (op : RmOperand) (size : OperandWidth) (value : U64) {f g : CpuContext → CpuContext}
    (hclear : ∀ ctx, ctx.hasException = false → f ctx = g ctx)
    (hkeep : ∀ ctx, ctx.keepMode (f ctx) = f ctx) :
    (do
      writeRmOperand op size value
      if ← cpuHasException then return ()
      modifyContext f : CpuProgram Unit).run viewOp cpu =
      transferred (do
        let stored ← cpu.rmStored op size value
        return stored.edit g) := by
  refine run_rmWriteThen hm hexc op size value (fun c hc => ?_) fun c hc => ?_
  · rw [Program.run_bind, run_cpuHasException, hc]
    rfl
  · rw [Program.run_bind, run_cpuHasException, hc]
    simp only [Bool.false_eq_true, if_false]
    rw [run_modifyContext, hkeep, hclear _ hc]
    rfl

/-- Reading an operand in front of the rest of an instruction. -/
theorem run_rmRead (hm : ManagerOk cpu.memory) (hexc : cpu.context.hasException = false)
    (op : RmOperand) (size : OperandWidth) {rest : U64 → CpuProgram Unit}
    {next : U64 → Except Cpu Cpu}
    (hrest : ∀ value, cpu.rmValue op size = .ok value →
      (rest value).run viewOp cpu = transferred (next value)) :
    (do
      let value ← readRmOperand op size
      if ← cpuHasException then return ()
      rest value : CpuProgram Unit).run viewOp cpu =
      transferred (do
        let value ← cpu.rmValue op size
        next value) := by
  rw [run_unlessFault (run_readRmOperand hm hexc op size)]
  have hclean := clean_rmValue hexc op size
  generalize cpu.rmValue op size = e at hclean hrest ⊢
  cases hclean with
  | error hfailed =>
    simp only
    rw [if_pos hfailed.pending]
    rfl
  | ok value =>
    simp only
    rw [if_neg (by rw [hexc]; decide)]
    exact hrest value rfl

/-! ## From the table to the code -/

/-- A program whose run past the page cache ends in `c` ends in `c` up to the cache. -/
theorem endsIn {p : CpuProgram Unit} (hm : MemoryOk cpu.memory) {c : Except Cpu Cpu}
    (h : p.run viewOp cpu = transferred c) :
    UpToCache (p.run cpuOp cpu).2 (transferred c).2 := by
  rw [← h]
  exact (run_viewOp p hm).2

end Cpueaxh
