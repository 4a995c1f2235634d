/-
# CRC32

The instruction of `instructions/crc32.hpp`, which takes the bytes of its operand into a
checksum in the low half of a register, lowest byte first and one bit at a time.  Over any run
that takes a byte string in pieces, the register holds the remainder of the reflected string
under the Castagnoli polynomial, however the string is cut.
-/
import Cpueaxh.ReflectedDivision
import Cpueaxh.RegisterOperands

namespace Cpueaxh

open HostMemory ByteOrder ReflectedDivision Polynomial

/-! ## The instruction -/

/-- One turn of the loop of `crc32c_accumulate_byte`. -/
def crc32cTurn (crc : U32) : U32 := crc >>> 1 ^^^ if crc &&& 1 != 0 then 0x82F63B78 else 0

/-- `crc32c_accumulate_byte`. -/
def crc32cAccumulateByte (crc : U32) (byte : U8) : U32 :=
  crc32cTurn^[8] (crc ^^^ byte.setWidth 32)

/-- `crc32c_accumulate_value`. -/
def crc32cAccumulateValue (crc : U32) (value : U64) (size : OperandWidth) : U32 :=
  (List.range (size.bits / 8)).foldl
    (fun crc index => crc32cAccumulateByte crc ((value >>> (index * 8) &&& 0xFF).setWidth 8)) crc

/-- The operand size of `decode_crc32_instruction`. -/
def crc32OperandSize (ctx : CpuContext) (opcode : U8) : OperandWidth :=
  if opcode = 0xF0 then .byte
  else if ctx.prefixBits.rexW then .qword
  else if ctx.prefixBits.operandSizeOverride then .word
  else .dword

/-- The end of `execute_crc32_with_decoded`, behind the source. -/
def writeCrc32 (operand : RmOperand) (size : OperandWidth) (source : U64) (ctx : CpuContext) :
    CpuContext :=
  let dest := decodeRegIndex ctx operand.modrm
  let initialCrc : U32 :=
    if ctx.prefixBits.rexW then (getReg 64 ctx dest).setWidth 32
    else (getReg 32 ctx dest).setWidth 32
  let result := crc32cAccumulateValue initialCrc source size
  if ctx.prefixBits.rexW then setReg 64 ctx dest (result.setWidth 64)
  else setReg 32 ctx dest (result.setWidth 64)

/-- `execute_crc32_with_decoded`. -/
def executeCrc32WithDecoded (operand : RmOperand) (size : OperandWidth) : CpuProgram Unit := do
  let source ← readRmOperand operand size
  if ← cpuHasException then return ()
  modifyContext (writeCrc32 operand size source)

/-- `execute_crc32` behind the operand that its decoder finds. -/
def executeCrc32 (opcode : U8) (operand : RmOperand) : CpuProgram Unit := do
  let ctx ← getContext
  executeCrc32WithDecoded operand (crc32OperandSize ctx opcode)

/-! ## The checksum -/

/-- The polynomial of CRC-32C. -/
noncomputable def castagnoli : (ZMod 2)[X] :=
  X ^ 32 + X ^ 28 + X ^ 27 + X ^ 26 + X ^ 25 + X ^ 23 + X ^ 22 + X ^ 20 + X ^ 19 + X ^ 18 + X ^ 14 +
    X ^ 13 + X ^ 11 + X ^ 10 + X ^ 9 + X ^ 8 + X ^ 6 + 1

theorem modulus_castagnoli : modulus (0x82F63B78 : U32) = castagnoli := by
  have hbits : ((Finset.range 32).filter fun i => (0x82F63B78 : U32).getMsbD i = true) =
      {28, 27, 26, 25, 23, 22, 20, 19, 18, 14, 13, 11, 10, 9, 8, 6, 0} := by decide
  rw [modulus, reflected_eq_sum, hbits, castagnoli]
  simp [Finset.sum_insert, add_assoc]

theorem crc32cTurn_eq : crc32cTurn = turn (0x82F63B78 : U32) := by
  funext crc
  have hlow : (crc &&& 1 != 0) = crc.getLsbD 0 :=
    SubtractionFlags.and_twoPow_ne_zero crc (by decide : 0 < 32)
  rw [crc32cTurn, turn, hlow]

theorem crc32cAccumulateByte_eq : crc32cAccumulateByte = absorb (0x82F63B78 : U32) := by
  funext crc byte
  rw [crc32cAccumulateByte, crc32cTurn_eq, absorb]

/-- The bytes of a value go in one after the other. -/
theorem crc32cAccumulateValue_eq (crc : U32) (value : U64) (size : OperandWidth) :
    crc32cAccumulateValue crc value size =
      (littleEndianBytes (size.bits / 8) value).foldl (absorb (0x82F63B78 : U32)) crc := by
  have hbytes : littleEndianBytes (size.bits / 8) value =
      (List.range (size.bits / 8)).map
        fun index => (value >>> (index * 8) &&& 0xFF).setWidth 8 := by
    apply List.ext_getElem
    · rw [littleEndianBytes_length, List.length_map, List.length_range]
    · intro i hi hi'
      rw [getElem_littleEndianBytes, List.getElem_map, List.getElem_range, Nat.mul_comm 8 i,
        BitVec.setWidth_and]
      exact (BitVec.and_allOnes).symm
  rw [crc32cAccumulateValue, crc32cAccumulateByte_eq, hbytes, List.foldl_map]

/-! ## One instruction -/

variable {cpu : Cpu}

/-- The checksum in a register. -/
def CpuContext.crc (ctx : CpuContext) (dest : Fin 16) : U32 := (ctx.regs dest).setWidth 32

/-- The context with some bytes taken into the checksum in a register. -/
def CpuContext.absorbed (ctx : CpuContext) (dest : Fin 16) (bytes : List U8) : CpuContext :=
  let crc := bytes.foldl (absorb (0x82F63B78 : U32)) (ctx.crc dest)
  { ctx with regs := Function.update ctx.regs dest (crc.setWidth 64) }

@[simp] theorem CpuContext.crc_absorbed (ctx : CpuContext) (dest : Fin 16) (bytes : List U8) :
    (ctx.absorbed dest bytes).crc dest =
      bytes.foldl (absorb (0x82F63B78 : U32)) (ctx.crc dest) := by
  unfold CpuContext.absorbed
  dsimp only [CpuContext.crc]
  rw [Function.update_self, BitVec.setWidth_setWidth_of_le _ (by decide), BitVec.setWidth_eq]

/-- The CPU behind a `CRC32`, or behind the refused byte of its source. -/
def Cpu.crc32 (cpu : Cpu) (operand : RmOperand) (size : OperandWidth) : Except Cpu Cpu := do
  let source ← cpu.rmValue operand size
  return cpu.edit fun ctx =>
    ctx.absorbed (decodeRegIndex ctx operand.modrm) (littleEndianBytes (size.bits / 8) source)

theorem writeCrc32_eq (operand : RmOperand) (size : OperandWidth) (source : U64)
    (ctx : CpuContext) :
    writeCrc32 operand size source ctx = ctx.absorbed (decodeRegIndex ctx operand.modrm)
      (littleEndianBytes (size.bits / 8) source) := by
  have hlow : ∀ x : U64, (truncateTo 32 x).setWidth 32 = x.setWidth 32 :=
    setWidth_truncateTo (Or.inr (Or.inl rfl))
  have hmask : ∀ x : U32, truncateTo 32 (x.setWidth 64) = x.setWidth 64 := by
    intro x
    have hback : (x.setWidth 64).setWidth 32 = x := by
      rw [BitVec.setWidth_setWidth_of_le _ (by decide), BitVec.setWidth_eq]
    rw [truncateTo_eq (Or.inr (Or.inl rfl)), hback]
  unfold writeCrc32
  dsimp only
  rw [crc32cAccumulateValue_eq]
  split_ifs with hrex
  · rfl
  · have hinitial : (getReg 32 ctx (decodeRegIndex ctx operand.modrm)).setWidth 32 =
        ctx.crc (decodeRegIndex ctx operand.modrm) := hlow _
    have hmerge : ∀ (old : U64) (x : U32), regMerge 32 old (x.setWidth 64) = x.setWidth 64 :=
      fun _ => hmask
    rw [hinitial]
    unfold setReg
    dsimp only
    rw [hmerge]
    rfl

/-- **CRC32** takes the bytes of its source into the register. -/
theorem run_executeCrc32WithDecoded (hm : ManagerOk cpu.memory)
    (hexc : cpu.context.hasException = false) (operand : RmOperand) (size : OperandWidth) :
    (executeCrc32WithDecoded operand size).run viewOp cpu =
      transferred (cpu.crc32 operand size) := by
  unfold executeCrc32WithDecoded Cpu.crc32
  refine run_rmRead hm hexc operand size fun source _ => ?_
  rw [run_modifyContext, writeCrc32_eq]
  rfl

/-! ## Runs -/

/-- Runs of `CRC32` instructions on the register `dest`, which take the pieces of a byte string
from their sources.  Code that stands in between keeps the checksum. -/
inductive Crc32Run (dest : Fin 16) : Cpu → List (List U8) → Cpu → Prop where
  | done (cpu : Cpu) : Crc32Run dest cpu [] cpu
  | crc32 {cpu final : Cpu} {pieces : List (List U8)} (opcode : U8) (operand : RmOperand)
    {source : U64} (hdest : decodeRegIndex cpu.context operand.modrm = dest)
    (hsource : cpu.rmValue operand (crc32OperandSize cpu.context opcode) = .ok source)
    (rest : Crc32Run dest ((executeCrc32 opcode operand).run cpuOp cpu).2 pieces final) :
    Crc32Run dest cpu
      (littleEndianBytes ((crc32OperandSize cpu.context opcode).bits / 8) source :: pieces) final
  | other {cpu next final : Cpu} {pieces : List (List U8)} (hm : MemoryOk next.memory)
    (hexc : next.context.hasException = false)
    (hcrc : next.context.crc dest = cpu.context.crc dest)
    (rest : Crc32Run dest next pieces final) : Crc32Run dest cpu pieces final

/-- What an instruction of a run does. -/
theorem executeCrc32_step (hm : MemoryOk cpu.memory) (hexc : cpu.context.hasException = false)
    {opcode : U8} {operand : RmOperand} {source : U64}
    (hsource : cpu.rmValue operand (crc32OperandSize cpu.context opcode) = .ok source) :
    let next := ((executeCrc32 opcode operand).run cpuOp cpu).2
    let dest := decodeRegIndex cpu.context operand.modrm
    MemoryOk next.memory ∧ next.context.hasException = false ∧
      next.context.crc dest =
        (littleEndianBytes ((crc32OperandSize cpu.context opcode).bits / 8) source).foldl
          (absorb (0x82F63B78 : U32)) (cpu.context.crc dest) := by
  intro next dest
  have hrun : (executeCrc32 opcode operand).run viewOp cpu =
      transferred (cpu.crc32 operand (crc32OperandSize cpu.context opcode)) :=
    run_executeCrc32WithDecoded hm.manager hexc operand _
  have hends := endsIn hm hrun
  rw [Cpu.crc32, hsource] at hends
  refine ⟨hends.ok, ?_, ?_⟩
  · rw [hends.context_eq]
    exact hexc
  · rw [hends.context_eq]
    show BitVec.setWidth 32 (Function.update cpu.context.regs dest _ dest) = _
    rw [Function.update_self, BitVec.setWidth_setWidth_of_le _ (by decide), BitVec.setWidth_eq]

/-- The checksum behind a run. -/
theorem Crc32Run.crc_eq {dest : Fin 16} {final : Cpu} {pieces : List (List U8)}
    (hm : MemoryOk cpu.memory) (hexc : cpu.context.hasException = false)
    (run : Crc32Run dest cpu pieces final) :
    final.context.crc dest =
      pieces.flatten.foldl (absorb (0x82F63B78 : U32)) (cpu.context.crc dest) := by
  induction run with
  | done cpu => rfl
  | crc32 opcode operand hdest hsource rest ih =>
    obtain ⟨hm', hexc', hcrc⟩ := executeCrc32_step hm hexc hsource
    rw [hdest] at hcrc
    rw [ih hm' hexc', hcrc, List.flatten_cons, List.foldl_append]
  | other hm' hexc' hcrc rest ih => rw [ih hm' hexc', hcrc]

/-- The register that the pieces of `exists_crc32Run` lie in. -/
def crc32Source (dest : Fin 16) : Fin 16 := if dest = regRax then regRcx else regRax

/-- The operand of a `CRC32` between two registers. -/
def crc32Registers (dest : Fin 16) : RmOperand where
  modrm := 0xC0 ||| BitVec.ofNat 8 (dest.val % 8) <<< 3 ||| BitVec.ofNat 8 (crc32Source dest).val
  memAddress := 0

/-- The context in front of a `CRC32` between two registers. -/
def CpuContext.withPiece (ctx : CpuContext) (dest : Fin 16) (size : OperandWidth)
    (piece : List U8) : CpuContext :=
  { ctx with
    prefixBits :=
      { PrefixBits.clear with
        rexPresent := true, rexW := size == .qword, rexR := decide (8 ≤ dest.val),
        operandSizeOverride := size == .word }
    regs := Function.update ctx.regs (crc32Source dest) (littleEndian 64 piece) }

/-- A register that holds the bits of a size only. -/
theorem getRegister_of_lt {ctx : CpuContext} {size : OperandWidth} {reg : Fin 16} {value : U64}
    (hrex : ctx.prefixBits.rexPresent = true) (hvalue : ctx.regs reg = value)
    (hlt : value.toNat < 2 ^ size.bits) : getRegister size ctx reg = value := by
  subst hvalue
  have hcut : ∀ n, n = 16 ∨ n = 32 ∨ n = 64 → (ctx.regs reg).toNat < 2 ^ n →
      truncateTo n (ctx.regs reg) = ctx.regs reg := by
    intro n hn h
    apply BitVec.eq_of_toNat_eq
    rw [truncateTo_toNat hn, Nat.mod_eq_of_lt h]
  cases size with
  | byte =>
    have hlow : (ctx.regs reg &&& 0xFF).setWidth 8 = (ctx.regs reg).setWidth 8 := by
      rw [BitVec.setWidth_and]
      exact BitVec.and_allOnes
    show (getReg8 ctx reg).setWidth 64 = ctx.regs reg
    rw [getReg8, if_pos hrex, hlow]
    exact (@eq_setWidth .byte _ hlt).symm
  | word => exact hcut 16 (by simp) hlt
  | dword => exact hcut 32 (by simp) hlt
  | qword => exact hcut 64 (by simp) hlt

/-- The source of such a `CRC32` is the piece. -/
theorem rmValue_withPiece {dest : Fin 16} {size : OperandWidth} {piece : List U8}
    (hsize : piece.length = size.bits / 8) :
    (cpu.edit fun ctx => ctx.withPiece dest size piece).rmValue (crc32Registers dest) size =
      .ok (littleEndian 64 piece) := by
  have hregister : (crc32Registers dest).isRegister = true := by
    revert dest
    decide
  have hindex : ∀ ctx : CpuContext, ctx.prefixBits.rexB = false →
      decodeRmIndex ctx (crc32Registers dest).modrm = crc32Source dest := by
    intro ctx hrex
    unfold decodeRmIndex
    rw [hrex]
    revert dest
    decide
  have hbits := size.bits_eq_eight_mul
  have hwide : littleEndian 64 piece = (littleEndian size.bits piece).setWidth 64 :=
    (setWidth_littleEndian (by omega)).symm
  have hlt : (littleEndian 64 piece).toNat < 2 ^ size.bits := by
    rw [hwide, BitVec.toNat_setWidth]
    exact lt_of_le_of_lt (Nat.mod_le _ _) (littleEndian size.bits piece).isLt
  have hregs : (cpu.context.withPiece dest size piece).regs (crc32Source dest) =
      littleEndian 64 piece := Function.update_self _ _ _
  unfold Cpu.rmValue
  rw [if_pos hregister, hindex _ rfl]
  exact congrArg Except.ok (getRegister_of_lt rfl hregs hlt)

/-- Every string can be taken in by a run, however it is cut. -/
theorem exists_crc32Run (dest : Fin 16) (pieces : List (List U8))
    (hsizes : ∀ piece ∈ pieces, piece.length ∈ [1, 2, 4, 8]) (cpu : Cpu)
    (hm : MemoryOk cpu.memory) (hexc : cpu.context.hasException = false) :
    ∃ final, Crc32Run dest cpu pieces final := by
  induction pieces generalizing cpu with
  | nil => exact ⟨cpu, .done cpu⟩
  | cons piece pieces ih =>
    obtain ⟨size, hsize⟩ : ∃ size : OperandWidth, piece.length = size.bits / 8 := by
      have hlength := hsizes piece (by simp)
      simp only [List.mem_cons, List.not_mem_nil, or_false] at hlength
      rcases hlength with h | h | h | h
      · exact ⟨.byte, h⟩
      · exact ⟨.word, h⟩
      · exact ⟨.dword, h⟩
      · exact ⟨.qword, h⟩
    have hopcode : ∃ opcode : U8,
        crc32OperandSize (cpu.context.withPiece dest size piece) opcode = size := by
      cases size with
      | byte => exact ⟨0xF0, rfl⟩
      | word => exact ⟨0xF1, rfl⟩
      | dword => exact ⟨0xF1, rfl⟩
      | qword => exact ⟨0xF1, rfl⟩
    obtain ⟨opcode, hopcode⟩ := hopcode
    have hdest : decodeRegIndex (cpu.context.withPiece dest size piece)
        (crc32Registers dest).modrm = dest := by
      show CpuContext.reg (if decide (8 ≤ dest.val) = true then _ else _) = dest
      clear * -
      revert dest
      decide
    have hcrc : (cpu.context.withPiece dest size piece).crc dest = cpu.context.crc dest := by
      have hne : dest ≠ crc32Source dest := by
        clear * -
        revert dest
        decide
      unfold CpuContext.crc CpuContext.withPiece
      dsimp only
      rw [Function.update_of_ne hne]
    set next := cpu.edit fun ctx => ctx.withPiece dest size piece with hnext
    have hsource : next.rmValue (crc32Registers dest) (crc32OperandSize next.context opcode) =
        .ok (littleEndian 64 piece) := by
      have hsame : crc32OperandSize next.context opcode = size := hopcode
      rw [hsame]
      exact rmValue_withPiece hsize
    have hpiece : littleEndianBytes ((crc32OperandSize next.context opcode).bits / 8)
        (littleEndian 64 piece) = piece := by
      have hle := size.le_sixtyFour
      have hsame : crc32OperandSize next.context opcode = size := hopcode
      rw [hsame, ← hsize]
      exact littleEndianBytes_littleEndian (by omega)
    obtain ⟨hm', hexc', -⟩ := @executeCrc32_step next hm hexc _ _ _ hsource
    obtain ⟨final, hfinal⟩ := ih (fun p hp => hsizes p (List.mem_cons_of_mem _ hp)) _ hm' hexc'
    refine ⟨final, @Crc32Run.other dest cpu next final _ hm hexc hcrc ?_⟩
    have hstep := Crc32Run.crc32 opcode (crc32Registers dest) hdest hsource hfinal
    rwa [hpiece] at hstep

/-- **CRC32 is CRC-32C**: behind every run that takes a byte string in pieces, the register holds
the remainder of the reflected string and the initial value, and every other run from the same
initial value that takes the same string ends in the same checksum. -/
theorem crc32_is_remainder {dest : Fin 16} {final : Cpu} {pieces : List (List U8)}
    (hm : MemoryOk cpu.memory) (hexc : cpu.context.hasException = false)
    (run : Crc32Run dest cpu pieces final) :
    reflected (final.context.crc dest) =
        (X ^ (8 * pieces.flatten.length) * reflected (cpu.context.crc dest) +
          X ^ 32 * message pieces.flatten) %ₘ castagnoli ∧
      ∀ {dest' : Fin 16} {cpu' final' : Cpu} {pieces' : List (List U8)}, MemoryOk cpu'.memory →
        cpu'.context.hasException = false → Crc32Run dest' cpu' pieces' final' →
        cpu'.context.crc dest' = cpu.context.crc dest → pieces'.flatten = pieces.flatten →
        final'.context.crc dest' = final.context.crc dest := by
  have hcrc := run.crc_eq hm hexc
  constructor
  · rw [hcrc, reflected_foldl_absorb (by decide), modulus_castagnoli]
  · intro dest' cpu' final' pieces' hm' hexc' run' hinitial hstring
    rw [hcrc, run'.crc_eq hm' hexc', hinitial, hstring]

/-- A CPU with the usual initial value in its registers. -/
def crc32Cpu : Cpu := hostCpu { initCpuContext false with regs := fun _ => 0xFFFFFFFF } fun _ => 0

/-- The string `123456789` in pieces of one, two, four and two bytes. -/
def crc32Pieces : List (List U8) :=
  [[0x31], [0x32, 0x33], [0x34, 0x35, 0x36, 0x37], [0x38, 0x39]]

/-- The checksum of `123456789` is the remainder. -/
theorem crc32_is_remainder_example :
    ∃ final, Crc32Run regRax crc32Cpu crc32Pieces final ∧
      reflected (final.context.crc regRax) =
        (X ^ (8 * crc32Pieces.flatten.length) * reflected (0xFFFFFFFF : U32) +
          X ^ 32 * message crc32Pieces.flatten) %ₘ castagnoli ∧
      final.context.crc regRax = 0x1CF96D7C := by
  have hm : MemoryOk crc32Cpu.memory := memoryOk_hostCpu _ _
  obtain ⟨final, run⟩ := exists_crc32Run regRax crc32Pieces (by decide) crc32Cpu hm rfl
  refine ⟨final, run, (crc32_is_remainder hm rfl run).1, ?_⟩
  rw [run.crc_eq hm rfl]
  decide +kernel

end Cpueaxh
