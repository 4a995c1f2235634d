/-
# The operand of CMPXCHG8B and CMPXCHG16B

What the instructions do with their operand, which operand it is, and when it is the one of the
architecture.  The check of the alignment sees an address without the length of the instruction.
-/
import Cpueaxh.CompareExchange
import Cpueaxh.PopLaw
import Cpueaxh.WideAccess
import Cpueaxh.MaskedLaw
import Cpueaxh.FlagWords
import Mathlib.Tactic.Abel

namespace Cpueaxh

open ByteOrder HostMemory

/-! ## What the instruction does -/

namespace CpuContext

variable (ctx : CpuContext)

/-- Two registers of `half` bits as one word. -/
def registerPair (half : ℕ) (high low : Fin 16) : BitVec (half + half) :=
  (ctx.regs high).setWidth half ++ (ctx.regs low).setWidth half

/-- The context with a word in `EDX:EAX` or `RDX:RAX`. -/
def loadPair (half : ℕ) (value : BitVec (half + half)) : CpuContext :=
  setReg half (setReg half ctx regRax (value.setWidth 64)) regRdx ((value >>> half).setWidth 64)

/-- The context with `ZF`. -/
def withZero (zero : Bool) : CpuContext := { ctx with rflags := withFlag ctx.rflags rflagsZf zero }

end CpuContext

/-- **Comparing and exchanging** the operand at an address, with halves of `half` bits. -/
def Cpu.exchanged (cpu : Cpu) (half : ℕ) (address : U64) : Except Cpu Cpu :=
  match cpu.operandPtrs false address (half / 4) 0 with
  | .error a => .error (cpu.refused false a)
  | .ok ptrs =>
    let value := littleEndian (half + half) (hostBytes cpu.memory.host ptrs)
    if value = cpu.context.registerPair half regRdx regRax then
      match cpu.operandPtrs true address (half / 4) 0 with
      | .error a => .error (cpu.refused true a)
      | .ok ptrs =>
        let bytes := littleEndianBytes (half / 4) (cpu.context.registerPair half regRcx regRbx)
        .ok ((cpu.setHost (commitHost cpu.memory.host ptrs bytes)).edit (·.withZero true))
    else .ok (cpu.edit fun ctx => (ctx.loadPair half value).withZero false)

variable {cpu : Cpu}

/-- The outcome of the execution: a refused read has written the registers too. -/
inductive ExchangeOutcome (cpu : Cpu) (half : ℕ) (address : U64) : Unit × Cpu → Prop where
  | exchanged {c : Cpu} (h : cpu.exchanged half address = .ok c) :
    ExchangeOutcome cpu half address ((), c)
  | refused {c : Cpu} (h : cpu.exchanged half address = .error c) (hfailed : cpu.Failed c)
      (regs : Fin 16 → U64) :
    ExchangeOutcome cpu half address ((), c.edit fun ctx => { ctx with regs := regs })

/-! ## Words and their halves -/

theorem append_eq_append {v w : ℕ} {high high' : BitVec v} {low low' : BitVec w} :
    high ++ low = high' ++ low' ↔ low = low' ∧ high = high' := by
  constructor
  · intro h
    have hbit : ∀ i, (high ++ low).getLsbD i = (high' ++ low').getLsbD i := by
      rw [h]
      exact fun _ => rfl
    simp only [BitVec.getLsbD_append] at hbit
    constructor
    · apply BitVec.eq_of_getLsbD_eq
      intro i hi
      have hlow := hbit i
      rwa [if_pos hi, if_pos hi] at hlow
    · apply BitVec.eq_of_getLsbD_eq
      intro i hi
      have hhigh := hbit (w + i)
      rwa [if_neg (by omega), if_neg (by omega), Nat.add_sub_cancel_left] at hhigh
  · rintro ⟨rfl, rfl⟩
    rfl

/-- Two registers of 32 bits, as the code puts them together. -/
theorem registerPair_dword (ctx : CpuContext) (high low : Fin 16) :
    (getReg 32 ctx high <<< 32) ||| getReg 32 ctx low = ctx.registerPair 32 high low := by
  unfold getReg CpuContext.registerPair
  rw [truncateTo_eq (by simp), truncateTo_eq (by simp)]
  apply BitVec.eq_of_getLsbD_eq
  intro i hi
  rw [BitVec.getLsbD_or, BitVec.getLsbD_shiftLeft, BitVec.getLsbD_append]
  simp only [BitVec.getLsbD_setWidth]
  by_cases hlow : i < 32
  · simp [hlow, hi]
  · simp [hlow, hi, show i - 32 < 32 by omega, show i - 32 < 64 by omega]

/-- Two registers of 64 bits. -/
theorem registerPair_qword (ctx : CpuContext) (high low : Fin 16) :
    ctx.registerPair 64 high low = ctx.regs high ++ ctx.regs low := by
  unfold CpuContext.registerPair
  rw [BitVec.setWidth_eq, BitVec.setWidth_eq]

/-- The words of an operand of sixteen bytes. -/
theorem xmmOfBytes_words (bytes : List U8) :
    (littleEndian (64 + 64) bytes).setWidth 64 = (xmmOfBytes bytes).low ∧
      (littleEndian (64 + 64) bytes >>> 64).setWidth 64 = (xmmOfBytes bytes).high := by
  rw [littleEndian_append (show 64 = 8 * 8 from rfl) (show 64 = 8 * 8 from rfl)]
  constructor
  · apply BitVec.eq_of_getLsbD_eq
    intro i hi
    rw [BitVec.getLsbD_setWidth, BitVec.getLsbD_append, if_pos hi, decide_eq_true hi, Bool.true_and]
    rfl
  · apply BitVec.eq_of_getLsbD_eq
    intro i hi
    rw [BitVec.getLsbD_setWidth, BitVec.getLsbD_ushiftRight, BitVec.getLsbD_append,
      if_neg (by omega), decide_eq_true hi, Bool.true_and, Nat.add_sub_cancel_left]
    rfl

/-! ## Sixteen bytes -/

/-- **A store of sixteen bytes** is refused at its first byte that is refused, or has them all. -/
theorem run_writeXmmMemory (hm : ManagerOk cpu.memory) (hexc : cpu.context.hasException = false)
    (address : U64) (value : XMMRegister) :
    (writeXmmMemory address value).run viewOp cpu =
      match cpu.operandPtrs true address 16 0 with
      | .error a => ((), cpu.refused true a)
      | .ok ptrs => ((), cpu.setHost (commitHost cpu.memory.host ptrs
          (littleEndianBytes 16 (value.high ++ value.low)))) := by
  have hbytes : littleEndianBytes 16 (value.high ++ value.low) =
      littleEndianBytes 8 value.low ++ littleEndianBytes 8 value.high :=
    @littleEndianBytes_append 64 8 64 8 rfl value.high value.low
  have hlength : (littleEndianBytes 16 (value.high ++ value.low)).length = 16 :=
    littleEndianBytes_length _
  have htry := tryGetContiguousPtr_contiguous hm hexc (show 0 < 16 by decide) address true
  have hpending : ∀ c : Cpu, (cpuHasException).run viewOp c = (c.context.hasException, c) :=
    fun _ => rfl
  unfold writeXmmMemory writeLinearBytes
  simp only [← hbytes, hlength]
  generalize littleEndianBytes 16 (value.high ++ value.low) = bytes at *
  rw [Program.run_bind, hpending]
  simp only [hexc, Bool.false_eq_true, if_false]
  rw [Program.run_bind]
  generalize htried : (cpuTryGetContiguousPtr address 16 true).run viewOp cpu = r at htry
  cases htry with
  | whole p _ h =>
    simp only [Option.isNone_some, Bool.false_and, Bool.false_eq_true, if_false, Program.run_bind,
      hpending, run_notifyFields, run_commitBytes, h]
  | split =>
    simp only [Option.isNone_none, Bool.true_and, hexc, Bool.false_eq_true, if_false,
      Program.run_bind, hpending, run_notifyFields, htried, run_resolveBytes hexc]
    cases cpu.operandPtrs true address 16 0 with
    | error a => rfl
    | ok ptrs => simp only [run_commitBytes]
  | refused a h hpend =>
    simp only [Option.isNone_none, Bool.true_and, hpend, if_true, Program.run_bind, hpending, h]
    rfl

/-- A store of sixteen bytes under a pending exception. -/
theorem run_writeXmmMemory_pending (hexc : cpu.context.hasException = true) (address : U64)
    (value : XMMRegister) : (writeXmmMemory address value).run viewOp cpu = ((), cpu) := by
  unfold writeXmmMemory
  rw [Program.run_bind, run_cpuHasException, hexc]
  rfl

/-- A store under a pending exception. -/
theorem run_writeMemory_pending (hexc : cpu.context.hasException = true) (size : ℕ)
    (address value : U64) : (writeMemory size address value).run viewOp cpu = ((), cpu) := by
  unfold writeMemory
  rw [Program.run_bind, run_cpuHasException, hexc]
  rfl

/-! ## The execution -/

/-- Writing `ZF`. -/
theorem run_setZero (hexc : cpu.context.hasException = false) (zero : Bool) :
    (modifyContext fun ctx => setFlag ctx rflagsZf zero).run viewOp cpu =
      ((), cpu.edit (·.withZero zero)) := by
  rw [run_modifyContext, keepMode_setFlag rfl, setFlag_eq hexc]
  rfl

/-- Writing a register. -/
theorem run_setReg (half : ℕ) (reg : Fin 16) (value : U64) :
    (modifyContext fun ctx => setReg half ctx reg value).run viewOp cpu =
      ((), cpu.edit fun ctx => setReg half ctx reg value) := rfl

theorem run_setZero_pending (hexc : cpu.context.hasException = true) (zero : Bool) :
    (modifyContext fun ctx => setFlag ctx rflagsZf zero).run viewOp cpu = ((), cpu) := by
  rw [run_modifyContext, setFlag_pending hexc]
  rfl

/-- **The execution**, for both widths: the operand is read, and stored or loaded. -/
theorem run_exchange (hexc : cpu.context.hasException = false) {half : ℕ} {address : U64}
    {α : Type} {read : CpuProgram α} {destination : List HostPtr → α} {zero : α}
    (hread : read.run viewOp cpu =
      match cpu.operandPtrs false address (half / 4) 0 with
      | .error a => (zero, cpu.refused false a)
      | .ok ptrs => (destination ptrs, cpu))
    {same : CpuContext → α → Bool} {store : CpuContext → CpuProgram Unit} {low high : α → U64}
    (hstore : (store cpu.context).run viewOp cpu =
      match cpu.operandPtrs true address (half / 4) 0 with
      | .error a => ((), cpu.refused true a)
      | .ok ptrs => ((), cpu.setHost (commitHost cpu.memory.host ptrs
          (littleEndianBytes (half / 4) (cpu.context.registerPair half regRcx regRbx)))))
    (hpending : ∀ ctx (c : Cpu), c.context.hasException = true →
      (store ctx).run viewOp c = ((), c))
    (hsame : ∀ ptrs, same cpu.context (destination ptrs) = true ↔
      littleEndian (half + half) (hostBytes cpu.memory.host ptrs) =
        cpu.context.registerPair half regRdx regRax)
    (hlow : ∀ ptrs, low (destination ptrs) =
      (littleEndian (half + half) (hostBytes cpu.memory.host ptrs)).setWidth 64)
    (hhigh : ∀ ptrs, high (destination ptrs) =
      (littleEndian (half + half) (hostBytes cpu.memory.host ptrs) >>> half).setWidth 64) :
    ExchangeOutcome cpu half address ((do
      let value ← read
      let ctx ← getContext
      if same ctx value then
        store ctx
        modifyContext fun ctx => setFlag ctx rflagsZf true
      else
        modifyContext fun ctx => setReg half ctx regRax (low value)
        modifyContext fun ctx => setReg half ctx regRdx (high value)
        modifyContext fun ctx => setFlag ctx rflagsZf false : CpuProgram Unit).run viewOp cpu) := by
  rw [Program.run_bind, hread]
  -- the operand is read first, then compared, and only an equal one is stored to
  cases hptrs : cpu.operandPtrs false address (half / 4) 0 with
  | error a =>
    have hfailed := failed_refused hexc (operandPtrs_error _ hptrs)
    have hrefused : cpu.exchanged half address = .error (cpu.refused false a) := by
      unfold Cpu.exchanged
      rw [hptrs]
    dsimp only
    rw [Program.run_bind, run_getContext]
    dsimp only
    split_ifs
    · rw [Program.run_bind, hpending _ _ hfailed.pending]
      dsimp only
      rw [run_setZero_pending hfailed.pending]
      exact .refused hrefused hfailed (cpu.refused false a).context.regs
    · -- the registers get the value zero of a refused read
      rw [Program.run_bind, run_setReg]
      dsimp only
      rw [Program.run_bind, run_setReg]
      dsimp only
      rw [run_setZero_pending]
      · exact .refused hrefused hfailed _
      · exact hfailed.pending
  | ok ptrs =>
    dsimp only
    rw [Program.run_bind, run_getContext]
    dsimp only
    have hexchanged : cpu.exchanged half address =
        if same cpu.context (destination ptrs) then
          match cpu.operandPtrs true address (half / 4) 0 with
          | .error a => .error (cpu.refused true a)
          | .ok ptrs => .ok ((cpu.setHost (commitHost cpu.memory.host ptrs (littleEndianBytes
              (half / 4) (cpu.context.registerPair half regRcx regRbx)))).edit (·.withZero true))
        else .ok (cpu.edit fun ctx => (setReg half (setReg half ctx regRax
          (low (destination ptrs))) regRdx (high (destination ptrs))).withZero false) := by
      unfold Cpu.exchanged
      rw [hptrs, hlow, hhigh]
      exact if_congr (hsame ptrs).symm rfl rfl
    -- the two sides of the comparison
    by_cases hequal : same cpu.context (destination ptrs) = true
    · rw [if_pos hequal] at hexchanged ⊢
      rw [Program.run_bind, hstore]
      cases hwrite : cpu.operandPtrs true address (half / 4) 0 with
      | error a =>
        have hfailed := failed_refused hexc (operandPtrs_error _ hwrite)
        rw [hwrite] at hexchanged
        dsimp only
        rw [run_setZero_pending hfailed.pending]
        exact .refused hexchanged hfailed (cpu.refused true a).context.regs
      | ok ptrs' =>
        rw [hwrite] at hexchanged
        dsimp only
        rw [run_setZero (by exact hexc)]
        exact .exchanged hexchanged
    · rw [if_neg hequal] at hexchanged ⊢
      rw [Program.run_bind, run_setReg]
      dsimp only
      rw [Program.run_bind, run_setReg]
      dsimp only
      rw [run_setZero (by exact hexc)]
      exact .exchanged hexchanged

/-- **CMPXCHG8B** of the operand at an address. -/
theorem run_executeCmpxchg8bMemory (hm : ManagerOk cpu.memory)
    (hexc : cpu.context.hasException = false) (address : U64) :
    ExchangeOutcome cpu 32 address ((executeCmpxchg8bMemory address).run viewOp cpu) := by
  have hstore : ∀ value : U64, (writeMemory 8 address value).run viewOp cpu =
      match cpu.operandPtrs true address (32 / 4) 0 with
      | .error a => ((), cpu.refused true a)
      | .ok ptrs => ((), cpu.setHost (commitHost cpu.memory.host ptrs
          (littleEndianBytes (32 / 4) value))) := by
    intro value
    rw [run_writeMemory hm hexc (by decide)]
    show _ = match cpu.operandPtrs true address 8 0 with
      | .error a => ((), cpu.refused true a)
      | .ok ptrs => ((), cpu.setHost (commitHost cpu.memory.host ptrs (littleEndianBytes 8 value)))
    cases hptrs : cpu.operandPtrs true address 8 0 with
    | error a => rfl
    | ok ptrs =>
      dsimp only
      rw [storeBytes_commitHost, operandPtrs_length _ hptrs]
  have hpair := registerPair_dword cpu.context
  have hexchange := @run_exchange cpu hexc 32 address U64 (readMemory 8 address)
    (loadValue cpu.memory.host) 0 (run_readMemory hm hexc (by decide) address)
    (fun ctx value => decide (value = (getReg 32 ctx regRdx <<< 32) ||| getReg 32 ctx regRax))
    (fun ctx => writeMemory 8 address ((getReg 32 ctx regRcx <<< 32) ||| getReg 32 ctx regRbx))
    (fun value => value) (fun value => value >>> 32) ?_ ?_ ?_ ?_ ?_
  · simp only [decide_eq_true_eq] at hexchange
    exact hexchange
  · rw [hpair]
    exact hstore _
  · intro ctx c hpending
    exact run_writeMemory_pending hpending _ _ _
  · intro ptrs
    rw [decide_eq_true_iff, hpair, loadValue_littleEndian]
  · intro ptrs
    rw [loadValue_littleEndian]
    exact (BitVec.setWidth_eq _).symm
  · intro ptrs
    rw [loadValue_littleEndian]
    exact (BitVec.setWidth_eq _).symm

/-- **CMPXCHG16B** of the operand at an address. -/
theorem run_executeCmpxchg16bMemory (hm : ManagerOk cpu.memory)
    (hexc : cpu.context.hasException = false) (address : U64) :
    ExchangeOutcome cpu 64 address ((executeCmpxchg16bMemory address).run viewOp cpu) := by
  have hexchange := @run_exchange cpu hexc 64 address XMMRegister (readXmmMemory address)
    (fun ptrs => xmmOfBytes (hostBytes cpu.memory.host ptrs)) .zero (run_readXmmMemory hm hexc address)
    (fun ctx value => decide (value.low = getReg 64 ctx regRax ∧ value.high = getReg 64 ctx regRdx))
    (fun ctx => writeXmmMemory address
      { low := getReg 64 ctx regRbx, high := getReg 64 ctx regRcx })
    (fun value => value.low) (fun value => value.high) ?_ ?_ ?_ ?_ ?_
  · simp only [decide_eq_true_eq] at hexchange
    exact hexchange
  · rw [run_writeXmmMemory hm hexc, registerPair_qword]
    rfl
  · intro ctx c hpending
    exact run_writeXmmMemory_pending hpending _ _
  · intro ptrs
    rw [decide_eq_true_iff, registerPair_qword,
      littleEndian_append (show 64 = 8 * 8 from rfl) (show 64 = 8 * 8 from rfl), append_eq_append]
    rfl
  · intro ptrs
    exact (xmmOfBytes_words _).1.symm
  · intro ptrs
    exact (xmmOfBytes_words _).2.symm

/-! ## The operand that the decoder finds -/

/-- The operand of an instruction: the bits of its halves, the size of its address, its offset in
its segment, and the base of the segment. -/
structure ExchangeOperand where
  half : ℕ
  addressSize : ℕ
  offset : U64
  segmentBase : U64
  deriving DecidableEq, Repr

/-- The linear address. -/
def ExchangeOperand.address (op : ExchangeOperand) : U64 := op.offset + op.segmentBase

/-- The operand does not begin at a multiple of its sixteen bytes. -/
def ExchangeOperand.Misaligned (op : ExchangeOperand) : Prop :=
  op.half = 64 ∧ op.address &&& 0x0F ≠ 0

instance (op : ExchangeOperand) : Decidable op.Misaligned := inferInstanceAs (Decidable (_ ∧ _))

namespace CpuContext

variable (ctx : CpuContext)

/-- The operand of the bytes behind the opcode in an instruction of some length; `none` when the
bytes are not all there. -/
def exchangeOperandOf (code : List U8) (instSize : ℕ) : Option ExchangeOperand :=
  let decoded := decodeModrm ctx.decodedAddressSize code
  if decoded.complete then
    some
      { half := if ctx.prefixBits.rexW then 64 else 32
        addressSize := ctx.decodedAddressSize
        offset := ctx.operandOffset decoded.operand instSize
        segmentBase := ctx.segmentBaseForAddressing (ctx.operandSegment decoded.operand) }
  else none

/-- The length of an instruction whose operand follows the opcode. -/
def exchangeLength (offset : ℕ) (code : List U8) : ℕ :=
  offset + (decodeModrm ctx.decodedAddressSize code).used

/-- The operand that is compared and written. -/
def exchangeOperand (code : List U8) : Option ExchangeOperand :=
  match scanPrefixes .clear false code with
  | (bits, _, _ :: _ :: rest) =>
    (ctx.withPrefixes bits).exchangeOperandOf rest
      ((ctx.withPrefixes bits).exchangeLength (code.length - rest.length) rest)
  | _ => none

/-- The operand whose alignment is checked. -/
def checkedOperand (code : List U8) : Option ExchangeOperand :=
  match scanPrefixes .clear false code with
  | (bits, _, _ :: _ :: rest) => (ctx.withPrefixes bits).exchangeOperandOf rest 0
  | _ => none

/-- The fault at an address that is not canonical. -/
def addressFault (segment : SegmentRegisterIndex) : RaisedFault :=
  if segment = .ss then .ss else .gp

/-- The address may not be used in 64-bit code. -/
def noncanonical (address : U64) : Bool := ctx.is64BitCode && !cpuIsCanonicalAddress address

/-- The exception that the decoder raises for an operand with all its bytes. -/
def exchangeFault (hasFeature : Bool) (segment : SegmentRegisterIndex)
    (checked operand : ExchangeOperand) : Option RaisedFault :=
  if ctx.noncanonical checked.address then some (addressFault segment)
  else if checked.Misaligned then some .gp
  else if checked.half = 64 ∧ hasFeature = false then some .gp
  else if ctx.noncanonical operand.address then some (addressFault segment)
  else none

end CpuContext

/-- The CPU with the length of an instruction. -/
def Cpu.sized (cpu : Cpu) (instSize : ℤ) : Cpu :=
  cpu.edit fun ctx => { ctx with lastInstSize := instSize }

/-! ## The decoder -/

theorem raised_sized (hexc : cpu.context.hasException = false) (fault : RaisedFault) (n : ℤ) :
    (cpu.raised fault 0).sized n = (cpu.sized n).raised fault 0 := by
  have hexc' : (cpu.sized n).context.hasException = false := hexc
  unfold Cpu.raised
  rw [raiseException_of_none hexc, raiseException_of_none hexc']
  rfl

/-- The decoder reads the bytes of an operand in memory as the others do. -/
theorem cmpxchgOperandBytes_eq {modrm : U8} (hmod : modField modrm ≠ 3) (size : ℕ)
    (rest : List U8) :
    cmpxchgOperandBytes size (modrm :: rest) = decodeModrm size (modrm :: rest) := by
  cases rest with
  | nil => simp [cmpxchgOperandBytes, decodeModrm, hmod]
  | cons sib rest => simp [cmpxchgOperandBytes, decodeModrm, hmod]

/-- A context in which an address has been checked. -/
theorem run_getEffectiveAddress_fault {op : MemOperand} (hmod : modField op.modrm ≠ 3) (n : ℕ) :
    (getEffectiveAddress op n).run viewOp cpu =
      (cpu.context.getEffectiveOffset op n +
          cpu.context.segmentBaseForAddressing (cpu.context.operandSegment op),
        if cpu.context.noncanonical (cpu.context.getEffectiveOffset op n +
            cpu.context.segmentBaseForAddressing (cpu.context.operandSegment op))
          then cpu.raised (CpuContext.addressFault (cpu.context.operandSegment op)) 0
        else cpu) := by
  rw [run_getEffectiveAddress hmod]
  unfold Cpu.validAddress CpuContext.noncanonical CpuContext.addressFault
  dsimp only
  generalize cpu.context.getEffectiveOffset op n +
    cpu.context.segmentBaseForAddressing (cpu.context.operandSegment op) = address
  by_cases hbad : (cpu.context.is64BitCode && !cpuIsCanonicalAddress address) = true
  · rw [if_pos hbad, if_pos hbad]
  · rw [if_neg hbad, if_neg hbad]

/-- The bytes of an operand in memory, and its address without the length. -/
theorem run_decodeModrmCmpxchg8b16b {modrm : U8} {rest : List U8} (hreg : regField modrm = 1)
    (hmod : modField modrm ≠ 3) {checked : ExchangeOperand}
    (hchecked : cpu.context.exchangeOperandOf (modrm :: rest) 0 = some checked) :
    (decodeModrmCmpxchg8b16b (modrm :: rest)).run viewOp cpu =
      ((decodeModrm cpu.context.decodedAddressSize (modrm :: rest), checked.address),
        if cpu.context.noncanonical checked.address then
          cpu.raised (CpuContext.addressFault (cpu.context.operandSegment
            (decodeModrm cpu.context.decodedAddressSize (modrm :: rest)).operand)) 0
        else cpu) := by
  have hmodrm := @decodeModrm_modrm modrm rest cpu.context.decodedAddressSize
  unfold CpuContext.exchangeOperandOf at hchecked
  unfold decodeModrmCmpxchg8b16b
  rw [Program.run_bind, run_getContext]
  dsimp only
  rw [cmpxchgOperandBytes_eq hmod]
  generalize decodeModrm cpu.context.decodedAddressSize (modrm :: rest) = decoded at *
  dsimp only at hchecked
  by_cases hcomplete : decoded.complete = true
  rotate_left
  · rw [if_neg hcomplete] at hchecked
    cases hchecked
  rw [if_pos hcomplete] at hchecked
  obtain rfl := Option.some.inj hchecked
  have hmem : modField decoded.operand.modrm ≠ 3 := by
    rw [hmodrm]
    exact hmod
  have hzero : cpu.context.operandOffset decoded.operand 0 =
      cpu.context.getEffectiveOffset decoded.operand 0 := by
    unfold CpuContext.operandOffset
    rw [ite_self]
  simp only [hmodrm, hreg, hmod, ne_eq, not_true_eq_false, and_false, if_false, hcomplete,
    Bool.not_true, Bool.false_eq_true]
  rw [Program.run_bind, run_getEffectiveAddress_fault hmem, ← hzero]
  rfl

/-- The operand behind its decoder, without and with the length of the instruction. -/
theorem exchangeOperandOf_some {ctx : CpuContext} {code : List U8} {n : ℕ} {op : ExchangeOperand}
    (h : ctx.exchangeOperandOf code n = some op) :
    op.half = (if ctx.prefixBits.rexW then 64 else 32) ∧
      op.address = ctx.operandOffset (decodeModrm ctx.decodedAddressSize code).operand n +
        ctx.segmentBaseForAddressing
          (ctx.operandSegment (decodeModrm ctx.decodedAddressSize code).operand) := by
  unfold CpuContext.exchangeOperandOf at h
  dsimp only at h
  by_cases hcomplete : (decodeModrm ctx.decodedAddressSize code).complete = true
  · rw [if_pos hcomplete] at h
    obtain rfl := Option.some.inj h
    exact ⟨rfl, rfl⟩
  · rw [if_neg hcomplete] at h
    cases h

/-- The address again, under a pending exception. -/
theorem run_finalizedAddress_pending (hexc : cpu.context.hasException = true) {op : MemOperand}
    (hmod : modField op.modrm ≠ 3) (address : U64) (n : ℕ) :
    ((finalizedAddress op address n).run viewOp cpu).2 = cpu := by
  unfold finalizedAddress
  by_cases hfinal : op.finalized = true
  · rw [if_pos hfinal, run_getEffectiveAddress_fault hmod]
    dsimp only
    rw [raised_of_pending hexc, ite_self]
  · rw [if_neg hfinal]
    rfl

/-- The address again, with the length of the instruction. -/
theorem run_finalizedAddress {op : MemOperand} (hmod : modField op.modrm ≠ 3) (n : ℕ) {base : U64}
    (hbase : base = cpu.context.segmentBaseForAddressing (cpu.context.operandSegment op))
    (hcanonical : cpu.context.noncanonical (cpu.context.operandOffset op 0 + base) = false) :
    (finalizedAddress op (cpu.context.operandOffset op 0 + base) n).run viewOp cpu =
      (cpu.context.operandOffset op n + base,
        if cpu.context.noncanonical (cpu.context.operandOffset op n + base) then
          cpu.raised (CpuContext.addressFault (cpu.context.operandSegment op)) 0
        else cpu) := by
  unfold finalizedAddress CpuContext.operandOffset at *
  by_cases hfinal : op.finalized = true
  · rw [if_pos hfinal, if_pos hfinal, run_getEffectiveAddress_fault hmod, ← hbase]
  · rw [if_neg hfinal, if_neg hfinal, if_neg hfinal]
    rw [ite_self] at hcanonical
    rw [hcanonical]
    rfl

/-- **The decoder** raises the exception of the operand, or has its address. -/
theorem run_decodeCmpxchgOperand (hexc : cpu.context.hasException = false) (hasFeature : Bool)
    {modrm : U8} {rest : List U8} {offset : ℕ} (hreg : regField modrm = 1)
    (hmod : modField modrm ≠ 3) {checked operand : ExchangeOperand}
    (hchecked : cpu.context.exchangeOperandOf (modrm :: rest) 0 = some checked)
    (hoperand : cpu.context.exchangeOperandOf (modrm :: rest)
      (cpu.context.exchangeLength offset (modrm :: rest)) = some operand) :
    match cpu.context.exchangeFault hasFeature (cpu.context.operandSegment
        (decodeModrm cpu.context.decodedAddressSize (modrm :: rest)).operand) checked operand with
    | some fault => ∃ inst n, (decodeCmpxchgOperand hasFeature offset (modrm :: rest)).run viewOp
        cpu = (inst, (cpu.sized n).raised fault 0)
    | none => ∃ n, (decodeCmpxchgOperand hasFeature offset (modrm :: rest)).run viewOp cpu =
        (⟨2 * operand.half, operand.address⟩, cpu.sized n) := by
  obtain ⟨hhalf, haddress⟩ := exchangeOperandOf_some hchecked
  obtain ⟨hhalf', haddress'⟩ := exchangeOperandOf_some hoperand
  have hmodrm := @decodeModrm_modrm modrm rest cpu.context.decodedAddressSize
  have hdecode := run_decodeModrmCmpxchg8b16b hreg hmod hchecked
  have hlength : cpu.context.exchangeLength offset (modrm :: rest) = offset +
    (decodeModrm cpu.context.decodedAddressSize (modrm :: rest)).used := rfl
  rw [hlength] at haddress'
  unfold decodeCmpxchgOperand
  rw [Program.run_bind, run_getContext]
  dsimp only
  rw [Program.run_bind, hdecode]
  dsimp only
  generalize decodeModrm cpu.context.decodedAddressSize (modrm :: rest) = decoded at *
  have hmem : modField decoded.operand.modrm ≠ 3 := by
    rw [hmodrm]
    exact hmod
  have hwide : (if cpu.context.prefixBits.rexW = true then 128 else 64) = 128 ↔
      checked.half = 64 := by
    rw [hhalf]
    cases cpu.context.prefixBits.rexW <;> decide
  have hsize : (if cpu.context.prefixBits.rexW = true then 128 else 64) = 2 * operand.half := by
    rw [hhalf']
    cases cpu.context.prefixBits.rexW <;> rfl
  generalize (if cpu.context.prefixBits.rexW = true then 128 else 64) = operandSize at *
  unfold CpuContext.exchangeFault
  by_cases hbad : cpu.context.noncanonical checked.address = true
  · -- every check behind the first exception leaves it alone
    rw [if_pos hbad, if_pos hbad]
    generalize CpuContext.addressFault (cpu.context.operandSegment decoded.operand) = fault
    have hpending := raised_pending hexc fault 0
    have hreturn : ∀ inst : CmpxchgInst, (do
        raiseGp 0
        return inst : CpuProgram CmpxchgInst).run viewOp (cpu.raised fault 0) =
          (inst, (cpu.sized cpu.context.lastInstSize).raised fault 0) := by
      intro inst
      rw [Program.run_bind, run_raiseGp, raised_of_pending hpending]
      rfl
    dsimp only
    split_ifs
    · exact ⟨_, _, hreturn _⟩
    · exact ⟨_, _, hreturn _⟩
    · have hfinal := run_finalizedAddress_pending hpending hmem checked.address
        (offset + decoded.used)
      generalize hrun : (finalizedAddress decoded.operand checked.address
        (offset + decoded.used)).run viewOp (cpu.raised fault 0) = r at hfinal
      obtain ⟨address, c⟩ := r
      obtain rfl : c = cpu.raised fault 0 := hfinal
      refine ⟨⟨operandSize, address⟩, (offset + decoded.used : ℕ), ?_⟩
      rw [Program.run_bind, hrun, Program.run_bind, ← raised_sized hexc]
      rfl
  · rw [if_neg hbad, if_neg hbad]
    have hreturn : ∀ inst : CmpxchgInst, (do
        raiseGp 0
        return inst : CpuProgram CmpxchgInst).run viewOp cpu =
          (inst, (cpu.sized cpu.context.lastInstSize).raised .gp 0) := fun inst => rfl
    -- the checks follow in the order of the code: alignment, feature, and the end of the operand
    by_cases hmisaligned : checked.Misaligned
    · have hguard : operandSize = 128 ∧ checked.address &&& 0x0F ≠ 0 :=
        ⟨hwide.mpr hmisaligned.1, hmisaligned.2⟩
      rw [if_pos hmisaligned, if_pos hguard]
      exact ⟨_, _, hreturn _⟩
    have hguard : ¬ (operandSize = 128 ∧ checked.address &&& 0x0F ≠ 0) :=
      fun h => hmisaligned ⟨hwide.mp h.1, h.2⟩
    rw [if_neg hmisaligned, if_neg hguard]
    by_cases hfeature : checked.half = 64 ∧ hasFeature = false
    · have hguard : operandSize = 128 ∧ hasFeature = false := ⟨hwide.mpr hfeature.1, hfeature.2⟩
      rw [if_pos hfeature, if_pos hguard]
      exact ⟨_, _, hreturn _⟩
    have hguard : ¬ (operandSize = 128 ∧ hasFeature = false) :=
      fun h => hfeature ⟨hwide.mp h.1, h.2⟩
    rw [if_neg hfeature, if_neg hguard]
    have hfinal := run_finalizedAddress hmem (offset + decoded.used) rfl
      (Bool.eq_false_iff.mpr (haddress ▸ hbad))
    rw [← haddress, ← haddress'] at hfinal
    rw [Program.run_bind, hfinal]
    dsimp only
    rw [Program.run_bind, hsize]
    split_ifs with hbad'
    · refine ⟨⟨2 * operand.half, operand.address⟩, (offset + decoded.used : ℕ), ?_⟩
      rw [← raised_sized hexc]
      rfl
    · exact ⟨(offset + decoded.used : ℕ), rfl⟩

/-- The CPU with the prefixes of an instruction. -/
def Cpu.prefixed (cpu : Cpu) (bits : PrefixBits) : Cpu := cpu.edit (·.withPrefixes bits)

/-- The fault of an instruction whose operand has all its bytes. -/
def Cpu.exchangeFault (cpu : Cpu) (hasFeature : Bool) (bits : PrefixBits) (code : List U8)
    (checked operand : ExchangeOperand) : Option RaisedFault :=
  (cpu.context.withPrefixes bits).exchangeFault hasFeature
    ((cpu.context.withPrefixes bits).operandSegment
      (decodeModrm (cpu.context.withPrefixes bits).decodedAddressSize code).operand) checked operand

/-- **The instruction** raises the exception of its operand, or compares and exchanges it. -/
theorem run_executeCmpxchg8b16b (hm : ManagerOk cpu.memory)
    (hexc : cpu.context.hasException = false) (hasFeature : Bool) {code rest : List U8} {modrm : U8}
    {bits : PrefixBits} {lock : Bool}
    (hscan : scanPrefixes .clear false code = (bits, lock, 0x0F :: 0xC7 :: modrm :: rest))
    (hreg : regField modrm = 1) (hmod : modField modrm ≠ 3) {checked operand : ExchangeOperand}
    (hchecked : cpu.context.checkedOperand code = some checked)
    (hoperand : cpu.context.exchangeOperand code = some operand) :
    match cpu.exchangeFault hasFeature bits (modrm :: rest) checked operand with
    | some fault => ∃ n, ((executeCmpxchg8b16b hasFeature code).run viewOp cpu).2 =
        ((cpu.prefixed bits).sized n).raised fault 0
    | none => ∃ n, ExchangeOutcome ((cpu.prefixed bits).sized n) operand.half operand.address
        ((executeCmpxchg8b16b hasFeature code).run viewOp cpu) := by
  unfold CpuContext.checkedOperand at hchecked
  unfold CpuContext.exchangeOperand at hoperand
  rw [hscan] at hchecked hoperand
  have hdecode : match cpu.exchangeFault hasFeature bits (modrm :: rest) checked operand with
      | some fault => ∃ inst n, (decodeCmpxchgOperand hasFeature
          (code.length - (modrm :: rest).length) (modrm :: rest)).run viewOp (cpu.prefixed bits) =
            (inst, ((cpu.prefixed bits).sized n).raised fault 0)
      | none => ∃ n, (decodeCmpxchgOperand hasFeature
          (code.length - (modrm :: rest).length) (modrm :: rest)).run viewOp (cpu.prefixed bits) =
            (⟨2 * operand.half, operand.address⟩, (cpu.prefixed bits).sized n) :=
    @run_decodeCmpxchgOperand (cpu.prefixed bits) hexc hasFeature modrm rest _ hreg hmod checked
      operand hchecked hoperand
  have hinst : (decodeCmpxchg8b16bInstruction hasFeature code).run viewOp cpu =
      (decodeCmpxchgOperand hasFeature (code.length - (modrm :: rest).length)
        (modrm :: rest)).run viewOp (cpu.prefixed bits) := by
    unfold decodeCmpxchg8b16bInstruction
    rw [hscan]
    rfl
  unfold executeCmpxchg8b16b
  rw [Program.run_bind, hinst]
  cases hfault : cpu.exchangeFault hasFeature bits (modrm :: rest) checked operand with
  | some fault =>
    rw [hfault] at hdecode
    obtain ⟨inst, n, hrun⟩ := hdecode
    refine ⟨n, ?_⟩
    rw [hrun]
    dsimp only
    have hpending : (((cpu.prefixed bits).sized n).raised fault 0).context.hasException = true :=
      raised_pending (by exact hexc) fault 0
    rw [Program.run_bind, run_cpuHasException, hpending]
    rfl
  | none =>
    rw [hfault] at hdecode
    obtain ⟨n, hrun⟩ := hdecode
    refine ⟨n, ?_⟩
    rw [hrun]
    dsimp only
    have hclear : ((cpu.prefixed bits).sized n).context.hasException = false := hexc
    rw [Program.run_bind, run_cpuHasException, hclear]
    simp only [Bool.false_eq_true, if_false]
    obtain ⟨hhalf, -⟩ := exchangeOperandOf_some hoperand
    -- the width of the operand selects the function
    split_ifs at hhalf
    · rw [hhalf]
      exact @run_executeCmpxchg16bMemory ((cpu.prefixed bits).sized n) hm hclear _
    · rw [hhalf]
      exact @run_executeCmpxchg8bMemory ((cpu.prefixed bits).sized n) hm hclear _

/-! ## The architecture -/

/-- The prefixes in the architecture, `LOCK` among them: a REX prefix counts only right in front of
the opcode. -/
def archLockPrefixes (mode64 : Bool) (bits : PrefixBits) : List U8 → PrefixBits × List U8
  | [] => (bits, [])
  | b :: code =>
    if b = 0x66 then
      archLockPrefixes mode64 { bits.withoutRex with operandSizeOverride := true } code
    else if b = 0x67 then
      archLockPrefixes mode64 { bits.withoutRex with addressSizeOverride := true } code
    else if (0xF0 :: skippedPrefixes).contains b then archLockPrefixes mode64 bits.withoutRex code
    else if mode64 = true ∧ 0x40 ≤ b ∧ b ≤ 0x4F then
      archLockPrefixes mode64 (bits.withRex b) code
    else (bits, b :: code)

/-- The operand in the architecture. -/
def CpuContext.archExchangeOperand (ctx : CpuContext) (offset : ℕ) (code : List U8)
    (form : AddressForm) : ExchangeOperand where
  half := if ctx.prefixBits.rexW then 64 else 32
  addressSize := ctx.archAddressSize
  offset := form.offset ctx.regs (ctx.popNextRip offset code) ctx.archAddressSize
  segmentBase := ctx.segmentBaseForAddressing
    (ctx.effectiveSegmentOverrideOrDefault form.defaultSegment)

/-- **The encodings of CMPXCHG8B and CMPXCHG16B**: some prefixes, `0F C7 /1` and an operand in
memory, within the length of an instruction. -/
structure ExchangeEncoding (ctx : CpuContext) (code : List U8) (bits : PrefixBits)
    (operand : List U8) (form : AddressForm) : Prop where
  prefixes : archLockPrefixes ctx.is64BitCode .clear code = (bits, 0x0F :: 0xC7 :: operand)
  group : operand.head?.map regField = some 1
  memory : (ctx.withPrefixes bits).archOperand operand = some form
  length : code.length - operand.length +
    archOperandLength (ctx.withPrefixes bits).archAddressSize operand ≤ 15

/-- Two CPUs differ at most in what a decoder leaves behind. -/
def Cpu.DecodedAs (cpu out : Cpu) : Prop :=
  out.memory.host = cpu.memory.host ∧ out.context =
    { cpu.context with
      prefixBits := out.context.prefixBits
      lastInstSize := out.context.lastInstSize }

/-- **What the instruction should do** with an operand: a misaligned one of sixteen bytes raises
`#GP` and nothing else changes, and another one is compared and exchanged; where one of its bytes
cannot be accessed, memory and flags stay as they were. -/
structure Exchanges (cpu out : Cpu) (op : ExchangeOperand) : Prop where
  misaligned : op.Misaligned → (cpu.raised .gp 0).DecodedAs out
  exchanged : ¬ op.Misaligned → ∀ c, cpu.exchanged op.half op.address = .ok c → c.DecodedAs out
  refused : ¬ op.Misaligned → ∀ c, cpu.exchanged op.half op.address = .error c →
    out.context.hasException = true ∧ out.memory.host = cpu.memory.host ∧
      out.context.rflags = cpu.context.rflags

/-- The instruction does what it should, with the operand of the architecture: this is the one that
it compares and writes, and the one whose alignment it checks. -/
structure ExchangeMeets (hasFeature : Bool) (cpu : Cpu) (code : List U8) (arch : ExchangeOperand) :
    Prop where
  operand : cpu.context.exchangeOperand code = some arch
  aligned : arch.half = 64 → cpu.context.checkedOperand code = some arch
  outcome : Exchanges cpu ((executeCmpxchg8b16b hasFeature code).run cpuOp cpu).2 arch

/-! ## Plain operands -/

/-- The operand cannot be accessed as the instruction does. -/
def Cpu.Unexchanged (cpu : Cpu) (op : ExchangeOperand) : Prop :=
  ∃ c, cpu.exchanged op.half op.address = .error c

/-- **The instructions that do what they should.**  Their operand is one that the decoder finds, and
one of sixteen bytes is not relative to the instruction pointer; an address from which the length of
the instruction is missing can be used where the operand can; a host with the feature; and no
misaligned operand in the stack segment at an address that is not canonical. -/
structure Cpu.ExchangePlain (cpu : Cpu) (hasFeature : Bool) (scanned : PrefixBits)
    (ctx : CpuContext) (offset : ℕ) (code : List U8) (form : AddressForm) : Prop where
  size : ctx.decodedAddressSize = ctx.archAddressSize
  width : scanned.rexW = ctx.prefixBits.rexW
  registers : ∀ read ∈ (ctx.withPrefixes scanned).archOperand code,
    truncateTo ctx.archAddressSize (read.registers ctx.regs + unsignedGap ctx.archAddressSize form) =
      truncateTo ctx.archAddressSize (form.registers ctx.regs)
  relative : ctx.archAddressSize = 32 → form.ripRelative = true →
    (ctx.popNextRip offset code).setWidth 32 = 0
  absolute : ctx.archAddressSize = 16 → form.base = none → form.displacement = 0
  indirect : ctx.archAddressSize = 16 → ∀ modrm rest, code = modrm :: rest →
    modField modrm = 0 → rmField modrm = 5 → 2 ≤ rest.length
  near : ctx.archAddressSize = 64 → form.ripRelative = true → ctx.prefixBits.rexW = false ∧
    (ctx.noncanonical ((ctx.archExchangeOperand offset code form).address -
      (ctx.popNextRip offset code - ctx.rip)) = true →
        cpu.Unexchanged (ctx.archExchangeOperand offset code form))
  feature : ctx.prefixBits.rexW = true → ¬ (ctx.archExchangeOperand offset code form).Misaligned →
    hasFeature = true ∨ cpu.Unexchanged (ctx.archExchangeOperand offset code form)
  stack : (ctx.archExchangeOperand offset code form).Misaligned →
    ctx.noncanonical (ctx.archExchangeOperand offset code form).address = true →
    (ctx.withPrefixes scanned).operandSegment
      (decodeModrm ctx.archAddressSize code).operand ≠ .ss

/-! ## Prefixes and lengths -/

/-- The decoder finds the opcode of the architecture, under the same sizes. -/
theorem scanPrefixes_arch (mode64 : Bool) {code operand : List U8} : ∀ {bits bits' final : PrefixBits}
    {lock : Bool}, bits.SameSizes bits' →
      archLockPrefixes mode64 bits code = (final, 0x0F :: operand) →
      ∃ final' lock', scanPrefixes bits' lock code = (final', lock', 0x0F :: operand) ∧
        final.SameSizes final' := by
  induction code with
  | nil =>
    intro bits bits' final lock _ h
    cases h
  | cons b code ih =>
    intro bits bits' final lock hsame h
    unfold archLockPrefixes at h
    unfold scanPrefixes
    split_ifs at h with hoperand haddress hskipped hrex
    · rw [if_pos hoperand]
      refine ih ?_ h
      exact ⟨rfl, hsame.2⟩
    · rw [if_neg hoperand, if_pos haddress]
      refine ih ?_ h
      exact ⟨hsame.1, rfl⟩
    · have hnot : ¬ (0x40 ≤ b ∧ b ≤ 0x4F) := by
        rintro ⟨hlow, hhigh⟩
        revert hskipped hlow hhigh
        revert b
        decide
      rw [if_neg hoperand, if_neg haddress, if_neg hnot]
      by_cases hlock : b = 0xF0
      · rw [if_pos hlock]
        refine ih ?_ h
        exact hsame
      · have hlisted : [0x26, 0x2E, 0x36, 0x3E, 0x64, 0x65, 0xF2, 0xF3].contains b = true := by
          rw [List.contains_cons, beq_eq_false_iff_ne.mpr hlock] at hskipped
          exact hskipped
        rw [if_neg hlock, if_pos hlisted]
        refine ih ?_ h
        exact hsame
    · rw [if_neg hoperand, if_neg haddress, if_pos hrex.2]
      refine ih ?_ h
      exact hsame
    · obtain ⟨rfl, hcode⟩ := Prod.mk.inj h
      obtain ⟨rfl, rfl⟩ := List.cons.inj hcode
      exact ⟨bits', lock, rfl, hsame⟩

/-- An operand relative to the instruction pointer is a displacement behind its ModRM byte. -/
theorem length_of_relative {ctx : CpuContext} {code : List U8} {form : AddressForm}
    (hform : ctx.archOperand code = some form) (hsize : ctx.archAddressSize = 64)
    (hrelative : form.ripRelative = true) :
    (decodeModrm 64 code).used = archOperandLength 64 code := by
  unfold CpuContext.archOperand at hform
  rw [hsize] at hform
  obtain ⟨modrm, rest, rfl, hmod, ⟨sib, rest', rfl, hsib, hsibForm⟩ | ⟨δ, hzero, hfive, hδ, rfl⟩ |
    ⟨δ, hsib, hdirect, hδ, rfl⟩⟩ := archForm_cases (by decide) hform
  · unfold archSibForm at hsibForm
    obtain ⟨δ, -, rfl⟩ := Option.map_eq_some_iff.mp hsibForm
    cases hrelative
  · have hdisp : (⟨64, true, modrm, false, 0, 0⟩ : MemOperand).dispSize = 4 := by
      unfold MemOperand.dispSize
      rw [if_pos ⟨hzero, hfive⟩]
      rfl
    unfold signedDisplacement at hδ
    by_cases hshort : rest.length < 4
    · rw [if_pos hshort] at hδ
      cases hδ
    rw [decodeModrm_plain (by omega), decodeDisplacement, hdisp, if_neg hshort]
    unfold archOperandLength
    dsimp only
    rw [if_neg (by decide), if_neg (by omega), if_pos ⟨hzero, hfive⟩]
  · cases hrelative

/-! ## Which operand -/

section Operand

variable {ctx : CpuContext} {code : List U8}

theorem exchangeOperandOf_eq (ctx : CpuContext) (code : List U8) (n : ℕ) :
    ctx.exchangeOperandOf code n =
      (ctx.memoryOffset ctx.decodedAddressSize code n).map fun offset =>
        { half := if ctx.prefixBits.rexW then 64 else 32
          addressSize := ctx.decodedAddressSize
          offset := offset
          segmentBase := ctx.segmentBaseForAddressing
            (ctx.operandSegment (decodeModrm ctx.decodedAddressSize code).operand) } := by
  unfold CpuContext.exchangeOperandOf CpuContext.memoryOffset
  dsimp only
  by_cases hcomplete : (decodeModrm ctx.decodedAddressSize code).complete = true
  · rw [if_pos hcomplete, if_pos hcomplete]
    rfl
  · rw [if_neg hcomplete, if_neg hcomplete]
    rfl

/-- The prefixes of the same sizes give the same address size to the decoder. -/
theorem decodedAddressSize_withPrefixes {scanned : PrefixBits}
    (hsizes : ctx.prefixBits.SameSizes scanned) :
    (ctx.withPrefixes scanned).decodedAddressSize = ctx.decodedAddressSize := by
  unfold CpuContext.decodedAddressSize
  show (if ctx.cs.descriptor.longMode then if scanned.addressSizeOverride then 32 else 64
    else if scanned.addressSizeOverride then 16 else 32) = _
  rw [hsizes.2]

/-- **The operand** is the one of the architecture, for the width and the address size of the
instruction and an offset that the decoder finds. -/
theorem exchangeOperandOf_iff {scanned : PrefixBits} (hsizes : ctx.prefixBits.SameSizes scanned)
    {form read : AddressForm} (hform : ctx.archOperand code = some form)
    (hread : (ctx.withPrefixes scanned).archOperand code = some read) (offset n : ℕ) :
    (ctx.withPrefixes scanned).exchangeOperandOf code n =
        some (ctx.archExchangeOperand offset code form) ↔
      scanned.rexW = ctx.prefixBits.rexW ∧ ctx.decodedAddressSize = ctx.archAddressSize ∧
        OffsetAlike ctx.archAddressSize code ctx.regs (ctx.rip + BitVec.ofNat 64 n)
          (ctx.popNextRip offset code) read form := by
  have hother : archForm ctx.is64BitCode ctx.archAddressSize (ctx.is64BitCode && scanned.rexX)
      (ctx.is64BitCode && scanned.rexB) code = some read := by
    rw [← hread, ← archAddressSize_withPrefixes hsizes]
    rfl
  have hlaw := @memoryOffset_reading_iff ctx (ctx.withPrefixes scanned) rfl code read form hform
    hother n (ctx.popNextRip offset code)
  have hbase := @popSegment_eq ctx scanned code form hform
  rw [exchangeOperandOf_eq, decodedAddressSize_withPrefixes hsizes]
  constructor
  · intro h
    obtain ⟨offset', hoffset, hfields⟩ := Option.map_eq_some_iff.mp h
    unfold CpuContext.archExchangeOperand at hfields
    simp only [ExchangeOperand.mk.injEq] at hfields
    obtain ⟨hhalf, hsize, rfl, -⟩ := hfields
    refine ⟨?_, hsize, hlaw.mp (hsize ▸ hoffset)⟩
    change (if scanned.rexW = true then 64 else 32) = _ at hhalf
    revert hhalf
    cases scanned.rexW <;> cases ctx.prefixBits.rexW <;> decide
  · rintro ⟨hwidth, hsize, halike⟩
    rw [hsize, hlaw.mpr halike, Option.map_some, hbase]
    unfold CpuContext.archExchangeOperand
    rw [← hwidth]
    rfl

/-- **The operand whose alignment is checked** is the operand itself, but for an operand relative to
the instruction pointer, which it precedes by the length of the instruction. -/
theorem checkedOperand_cases {scanned : PrefixBits} (hsizes : ctx.prefixBits.SameSizes scanned)
    {form read : AddressForm} (hform : ctx.archOperand code = some form)
    (hread : (ctx.withPrefixes scanned).archOperand code = some read) {offset n : ℕ}
    (hoperand : (ctx.withPrefixes scanned).exchangeOperandOf code n =
      some (ctx.archExchangeOperand offset code form)) :
    ∃ checked, (ctx.withPrefixes scanned).exchangeOperandOf code 0 = some checked ∧
      checked.half = (ctx.archExchangeOperand offset code form).half ∧
      (ctx.archAddressSize = 64 ∧ form.ripRelative = true → checked.address =
        (ctx.archExchangeOperand offset code form).address -
          (ctx.popNextRip offset code - ctx.rip)) ∧
      (¬ (ctx.archAddressSize = 64 ∧ form.ripRelative = true) →
        checked = ctx.archExchangeOperand offset code form) := by
  obtain ⟨hwidth, hsize, halike⟩ := (exchangeOperandOf_iff hsizes hform hread offset n).mp hoperand
  have hother : archForm ctx.is64BitCode ctx.archAddressSize (ctx.is64BitCode && scanned.rexX)
      (ctx.is64BitCode && scanned.rexB) code = some read := by
    rw [← hread, ← archAddressSize_withPrefixes hsizes]
    rfl
  by_cases hrelative : ctx.archAddressSize = 64 ∧ form.ripRelative = true
  · -- without the length, the operand is relative to the instruction itself
    have hlaw := (@memoryOffset_reading_iff ctx (ctx.withPrefixes scanned) rfl code read form hform
      hother 0 ctx.rip).mpr
        ⟨halike.registers, fun h32 => by omega, fun _ _ => BitVec.add_zero _, halike.absolute,
          halike.indirect⟩
    have hbase := @popSegment_eq ctx scanned code form hform
    rw [exchangeOperandOf_eq, decodedAddressSize_withPrefixes hsizes, hsize, hlaw]
    refine ⟨_, rfl, ?_, ?_, fun h => absurd hrelative h⟩
    · show (if scanned.rexW = true then 64 else 32) = if ctx.prefixBits.rexW = true then 64 else 32
      rw [hwidth]
    · intro _
      have harch : (ctx.archExchangeOperand offset code form).address =
          form.offset ctx.regs (ctx.popNextRip offset code) ctx.archAddressSize +
            ctx.segmentBaseForAddressing
              (ctx.effectiveSegmentOverrideOrDefault form.defaultSegment) := rfl
      rw [harch, ← hbase]
      show form.offset ctx.regs ctx.rip ctx.archAddressSize +
        (ctx.withPrefixes scanned).segmentBaseForAddressing ((ctx.withPrefixes scanned).operandSegment
          (decodeModrm ctx.archAddressSize code).operand) = _
      rw [offset_registers, offset_registers, hrelative.1, hrelative.2]
      generalize (ctx.withPrefixes scanned).segmentBaseForAddressing _ = base
      show form.registers ctx.regs + ctx.rip + BitVec.ofInt 64 form.displacement + base =
        form.registers ctx.regs + ctx.popNextRip offset code + BitVec.ofInt 64 form.displacement +
          base - (ctx.popNextRip offset code - ctx.rip)
      abel
  · refine ⟨_, ?_, rfl, fun h => absurd h hrelative, fun _ => rfl⟩
    have hfinal : (decodeModrm ctx.archAddressSize code).operand.finalized = false := by
      match code, hform with
      | [], hform => cases hform
      | modrm :: rest, hform =>
        apply finalized_eq_false hform
        · intro h64
          rcases archAddressSize_cases ctx with ⟨hword, -⟩ | h32 | ⟨-, hmode⟩
          · omega
          · omega
          · exact hmode
        · intro h64
          rw [← Bool.not_eq_true]
          exact fun htrue => hrelative ⟨h64, htrue⟩
    have hsame : (ctx.withPrefixes scanned).memoryOffset ctx.archAddressSize code 0 =
        (ctx.withPrefixes scanned).memoryOffset ctx.archAddressSize code n := by
      unfold CpuContext.memoryOffset CpuContext.operandOffset
      dsimp only
      rw [hfinal]
      rfl
    rw [← hoperand, exchangeOperandOf_eq, exchangeOperandOf_eq,
      decodedAddressSize_withPrefixes hsizes, hsize, hsame]

end Operand

/-! ## The outcome -/

/-- The operand has pointers that do not depend on the prefixes. -/
theorem operandPtrs_prefixed (bits : PrefixBits) (n : ℤ) (store : Bool) (address : U64) (size : ℕ) :
    ((cpu.prefixed bits).sized n).operandPtrs store address size 0 =
      cpu.operandPtrs store address size 0 := by
  have hptr : ∀ a, ((cpu.prefixed bits).sized n).dataPtr store a = cpu.dataPtr store a :=
    fun _ => rfl
  exact operandPtrs_congr hptr size 0

/-- Neither do the comparison and the exchange. -/
theorem exchanged_prefixed (bits : PrefixBits) (n : ℤ) (half : ℕ) (address : U64) :
    match cpu.exchanged half address with
    | .ok c => ((cpu.prefixed bits).sized n).exchanged half address = .ok ((c.prefixed bits).sized n)
    | .error _ => ∃ c, ((cpu.prefixed bits).sized n).exchanged half address = .error c := by
  unfold Cpu.exchanged
  rw [operandPtrs_prefixed, operandPtrs_prefixed]
  cases cpu.operandPtrs false address (half / 4) 0 with
  | error a => exact ⟨_, rfl⟩
  | ok ptrs =>
    dsimp only
    by_cases hequal : littleEndian (half + half) (hostBytes cpu.memory.host ptrs) =
        cpu.context.registerPair half regRdx regRax
    · have hequal' : littleEndian (half + half)
          (hostBytes ((cpu.prefixed bits).sized n).memory.host ptrs) =
            ((cpu.prefixed bits).sized n).context.registerPair half regRdx regRax := hequal
      rw [if_pos hequal, if_pos hequal']
      cases cpu.operandPtrs true address (half / 4) 0 with
      | error a => exact ⟨_, rfl⟩
      | ok ptrs => rfl
    · have hequal' : ¬ littleEndian (half + half)
          (hostBytes ((cpu.prefixed bits).sized n).memory.host ptrs) =
            ((cpu.prefixed bits).sized n).context.registerPair half regRdx regRax := hequal
      rw [if_neg hequal, if_neg hequal']
      rfl

/-- A completed exchange leaves no exception. -/
theorem exchanged_hasException (hexc : cpu.context.hasException = false) {half : ℕ} {address : U64}
    {c : Cpu} (h : cpu.exchanged half address = .ok c) : c.context.hasException = false := by
  unfold Cpu.exchanged at h
  dsimp only at h
  split at h
  · cases h
  · split_ifs at h
    · split at h
      · cases h
      · cases h
        exact hexc
    · cases h
      exact hexc

/-- An operand at an address that is not canonical cannot be accessed. -/
theorem unexchanged_of_noncanonical {op : ExchangeOperand} (hhalf : op.half = 32 ∨ op.half = 64)
    (h : cpu.context.noncanonical op.address = true) : cpu.Unexchanged op := by
  have hptr : cpu.dataPtr false (op.address + 0) = none := by
    rw [show op.address + 0 = op.address from BitVec.add_zero _]
    exact if_pos h
  have hptrs : ∀ n, cpu.operandPtrs false op.address (n + 1) 0 = .error (op.address + 0) := by
    intro n
    unfold Cpu.operandPtrs
    rw [hptr]
  unfold Cpu.Unexchanged Cpu.exchanged
  rcases hhalf with hhalf | hhalf
  · rw [hhalf, show 32 / 4 = 7 + 1 from rfl, hptrs]
    exact ⟨_, rfl⟩
  · rw [hhalf, show 64 / 4 = 15 + 1 from rfl, hptrs]
    exact ⟨_, rfl⟩

/-! ## The law -/

section Law

variable {code operand : List U8} {bits : PrefixBits} {form : AddressForm}

theorem decodedAs_prefixed (c : Cpu) (bits : PrefixBits) (n : ℤ) :
    c.DecodedAs ((c.prefixed bits).sized n) := ⟨rfl, rfl⟩

theorem Cpu.DecodedAs.hasException {c out : Cpu} (h : c.DecodedAs out) :
    out.context.hasException = c.context.hasException := by
  rw [h.2]
  rfl

/-- An exception of the decoder leaves the rest as it was. -/
theorem decodedAs_raised (hexc : cpu.context.hasException = false) (bits : PrefixBits) (n : ℤ)
    (fault : RaisedFault) :
    (cpu.raised fault 0).DecodedAs (((cpu.prefixed bits).sized n).raised fault 0) := by
  have hexc' : ((cpu.prefixed bits).sized n).context.hasException = false := hexc
  unfold Cpu.raised
  rw [raiseException_of_none hexc, raiseException_of_none hexc']
  exact ⟨rfl, rfl⟩

theorem decodedAs_exception (hexc : cpu.context.hasException = false) {fault : RaisedFault} {out : Cpu}
    (h : (cpu.raised fault 0).DecodedAs out) : out.context.exception = ⟨fault.code, 0⟩ := by
  rw [h.2, Cpu.raised, raiseException_of_none hexc]

/-- The outcome of the execution with the prefixes of the instruction. -/
theorem exchangeOutcome_cases {scanned : PrefixBits} {n : ℤ} {op : ExchangeOperand} {r : Unit × Cpu}
    (h : ExchangeOutcome ((cpu.prefixed scanned).sized n) op.half op.address r) :
    (∃ c, cpu.exchanged op.half op.address = .ok c ∧ c.DecodedAs r.2) ∨
      (cpu.Unexchanged op ∧ r.2.context.hasException = true ∧
        r.2.memory.host = cpu.memory.host ∧ r.2.context.rflags = cpu.context.rflags) := by
  have hprefixed := @exchanged_prefixed cpu scanned n op.half op.address
  cases hexchanged : cpu.exchanged op.half op.address with
  | ok c =>
    rw [hexchanged] at hprefixed
    cases h with
    | exchanged h =>
      obtain rfl := Except.ok.inj (hprefixed.symm.trans h)
      exact Or.inl ⟨c, rfl, decodedAs_prefixed c scanned n⟩
    | refused h =>
      rw [h] at hprefixed
      cases hprefixed
  | error e =>
    rw [hexchanged] at hprefixed
    obtain ⟨c, hprefixed⟩ := hprefixed
    cases h with
    | exchanged h =>
      rw [h] at hprefixed
      cases hprefixed
    | refused h hfailed regs =>
      obtain ⟨exception, cr2, asked, rfl⟩ := hfailed.same
      exact Or.inr ⟨⟨e, hexchanged⟩, hfailed.pending, rfl, rfl⟩

/-- The CPU behind the instruction, for the exception of its decoder. -/
def ExchangeEnd (cpu out : Cpu) (fault : Option RaisedFault) (op : ExchangeOperand) : Prop :=
  match fault with
  | some fault => (cpu.raised fault 0).DecodedAs out
  | none => (∃ c, cpu.exchanged op.half op.address = .ok c ∧ c.DecodedAs out) ∨
      (cpu.Unexchanged op ∧ out.context.hasException = true ∧
        out.memory.host = cpu.memory.host ∧ out.context.rflags = cpu.context.rflags)

/-- **Every run** of the instruction ends so. -/
theorem exchangeEnd (hasFeature : Bool) (hm : MemoryOk cpu.memory)
    (hexc : cpu.context.hasException = false) {rest : List U8} {modrm : U8} {scanned : PrefixBits}
    {lock : Bool}
    (hscan : scanPrefixes .clear false code = (scanned, lock, 0x0F :: 0xC7 :: modrm :: rest))
    (hreg : regField modrm = 1) (hmod : modField modrm ≠ 3) {checked op : ExchangeOperand}
    (hchecked : cpu.context.checkedOperand code = some checked)
    (hoperand : cpu.context.exchangeOperand code = some op) :
    ExchangeEnd cpu ((executeCmpxchg8b16b hasFeature code).run cpuOp cpu).2
      (cpu.exchangeFault hasFeature scanned (modrm :: rest) checked op) op := by
  obtain ⟨hcontext, hhost⟩ : ((executeCmpxchg8b16b hasFeature code).run cpuOp cpu).2.context =
      ((executeCmpxchg8b16b hasFeature code).run viewOp cpu).2.context ∧
      ((executeCmpxchg8b16b hasFeature code).run cpuOp cpu).2.memory.host =
        ((executeCmpxchg8b16b hasFeature code).run viewOp cpu).2.memory.host :=
    ⟨(run_viewOp _ hm).2.context_eq, (run_viewOp _ hm).2.host_eq⟩
  have hrun := run_executeCmpxchg8b16b hm.manager hexc hasFeature hscan hreg hmod hchecked hoperand
  unfold ExchangeEnd Cpu.DecodedAs
  rw [hcontext, hhost]
  generalize cpu.exchangeFault hasFeature scanned (modrm :: rest) checked op = fault at hrun ⊢
  cases fault with
  | some fault =>
    obtain ⟨n, hrun⟩ := hrun
    dsimp only
    rw [hrun]
    exact decodedAs_raised hexc scanned n fault
  | none =>
    obtain ⟨n, hrun⟩ := hrun
    exact exchangeOutcome_cases hrun

variable {ctx : CpuContext} {scanned : PrefixBits} {offset n : ℕ} {out : Cpu} {hasFeature : Bool}

/-- The instructions that do what they should are plain. -/
theorem exchangePlain_of_meets (hexc : cpu.context.hasException = false)
    (hctx : ctx = cpu.context.withPrefixes bits) (hsizes : ctx.prefixBits.SameSizes scanned)
    (hform : ctx.archOperand operand = some form) (hnext : ctx.popNextRip offset operand ≠ ctx.rip)
    (hoperand : (ctx.withPrefixes scanned).exchangeOperandOf operand n =
      some (ctx.archExchangeOperand offset operand form))
    (haligned : (ctx.archExchangeOperand offset operand form).half = 64 →
      (ctx.withPrefixes scanned).exchangeOperandOf operand 0 =
        some (ctx.archExchangeOperand offset operand form))
    (hmeets : Exchanges cpu out (ctx.archExchangeOperand offset operand form))
    (hend : ∀ checked, (ctx.withPrefixes scanned).exchangeOperandOf operand 0 = some checked →
      ExchangeEnd cpu out (cpu.exchangeFault hasFeature scanned operand checked
        (ctx.archExchangeOperand offset operand form))
          (ctx.archExchangeOperand offset operand form)) :
    cpu.ExchangePlain hasFeature scanned ctx offset operand form := by
  obtain ⟨read, hother⟩ := archForm_other hform (ctx.is64BitCode && scanned.rexX)
    (ctx.is64BitCode && scanned.rexB)
  have hread : (ctx.withPrefixes scanned).archOperand operand = some read := by
    rw [← hother, ← archAddressSize_withPrefixes hsizes]
    rfl
  obtain ⟨hwidth, hsize, halike⟩ :=
    (exchangeOperandOf_iff hsizes hform hread offset n).mp hoperand
  obtain ⟨checked, hchecked, hhalf, hdistance, hsame⟩ :=
    checkedOperand_cases hsizes hform hread hoperand
  have hend := hend checked hchecked
  have hwide : ctx.prefixBits.rexW = true →
      (ctx.archExchangeOperand offset operand form).half = 64 := fun h => if_pos h
  have hsegment : (cpu.context.withPrefixes scanned).decodedAddressSize = ctx.archAddressSize := by
    rw [← hsize, ← decodedAddressSize_withPrefixes hsizes, hctx]
    rfl
  have hnoncanonical : ∀ address, (cpu.context.withPrefixes scanned).noncanonical address =
      ctx.noncanonical address := by
    rw [hctx]
    exact fun _ => rfl
  -- an exception of the decoder is right only where the operand cannot be accessed
  have hunexchanged : (∃ fault, cpu.exchangeFault hasFeature scanned operand checked
      (ctx.archExchangeOperand offset operand form) = some fault) →
      ¬ (ctx.archExchangeOperand offset operand form).Misaligned →
      cpu.Unexchanged (ctx.archExchangeOperand offset operand form) := by
    rintro ⟨fault, hfault⟩ hright
    rw [hfault] at hend
    have hpending := hend.hasException.trans (raised_pending hexc fault 0)
    cases hexchanged : cpu.exchanged (ctx.archExchangeOperand offset operand form).half
        (ctx.archExchangeOperand offset operand form).address with
    | error c => exact ⟨c, hexchanged⟩
    | ok c =>
      have hclear := (hmeets.exchanged hright c hexchanged).hasException
      rw [hpending, exchanged_hasException hexc hexchanged] at hclear
      cases hclear
  constructor
  · exact hsize
  · exact hwidth
  · intro read' hread'
    obtain rfl := Option.some.inj (hread.symm.trans hread')
    exact halike.registers
  · exact halike.relative
  · exact halike.absolute
  · exact halike.indirect
  · intro h64 hrelative
    have hnarrow : ctx.prefixBits.rexW = false := by
      rw [← Bool.not_eq_true]
      intro hrex
      obtain ⟨-, -, halike0⟩ :=
        (exchangeOperandOf_iff hsizes hform hread offset 0).mp (haligned (hwide hrex))
      have hrip := halike0.near h64 hrelative
      rw [show ctx.rip + BitVec.ofNat 64 0 = ctx.rip from BitVec.add_zero _] at hrip
      exact hnext hrip.symm
    refine ⟨hnarrow, fun hbad => hunexchanged ?_ ?_⟩
    · rw [← hdistance ⟨h64, hrelative⟩, ← hnoncanonical] at hbad
      exact ⟨_, if_pos hbad⟩
    · rintro ⟨hhalf64, -⟩
      change (if ctx.prefixBits.rexW = true then 64 else 32) = 64 at hhalf64
      rw [hnarrow] at hhalf64
      cases hhalf64
  · intro hrex hright
    obtain rfl := Option.some.inj (hchecked.symm.trans (haligned (hwide hrex)))
    by_cases hfeature : hasFeature = true
    · exact Or.inl hfeature
    · refine Or.inr (hunexchanged ?_ hright)
      have hlacks : (ctx.archExchangeOperand offset operand form).half = 64 ∧ hasFeature = false :=
        ⟨hwide hrex, Bool.eq_false_iff.mpr hfeature⟩
      unfold Cpu.exchangeFault CpuContext.exchangeFault
      rw [if_neg hright, if_pos hlacks]
      split_ifs <;> exact ⟨_, rfl⟩
  · intro hmisaligned hbad hss
    obtain rfl := Option.some.inj (hchecked.symm.trans (haligned hmisaligned.1))
    have hfault : cpu.exchangeFault hasFeature scanned operand
        (ctx.archExchangeOperand offset operand form)
          (ctx.archExchangeOperand offset operand form) = some .ss := by
      unfold Cpu.exchangeFault CpuContext.exchangeFault
      rw [hnoncanonical, if_pos hbad, hsegment]
      subst hctx
      exact congrArg some (if_pos hss)
    rw [hfault] at hend
    have hcode := (decodedAs_exception hexc hend).symm.trans
      (decodedAs_exception hexc (hmeets.misaligned hmisaligned))
    exact absurd hcode (by decide)

theorem rexW_of_archExchangeOperand (h : (ctx.archExchangeOperand offset operand form).half = 64) :
    ctx.prefixBits.rexW = true := by
  change (if ctx.prefixBits.rexW = true then 64 else 32) = 64 at h
  by_contra hrex
  rw [if_neg hrex] at h
  cases h

/-- An exception other than the one of a misaligned operand, where the exchange is refused. -/
theorem exchanges_of_raised (hexc : cpu.context.hasException = false) {op : ExchangeOperand}
    {fault : RaisedFault} (hright : ¬ op.Misaligned) (hunexchanged : cpu.Unexchanged op)
    (hraised : (cpu.raised fault 0).DecodedAs out) : Exchanges cpu out op := by
  constructor
  · exact fun hmisaligned => absurd hmisaligned hright
  · intro _ c hc
    obtain ⟨e, he⟩ := hunexchanged
    rw [hc] at he
    cases he
  · intro _ c _
    have hpending := hraised.hasException.trans (raised_pending hexc fault 0)
    refine ⟨hpending, hraised.1, ?_⟩
    rw [hraised.2, Cpu.raised, raiseException_of_none hexc]

theorem exchanges_of_misaligned {op : ExchangeOperand} (hmisaligned : op.Misaligned)
    (hraised : (cpu.raised .gp 0).DecodedAs out) : Exchanges cpu out op :=
  ⟨fun _ => hraised, fun h => absurd hmisaligned h, fun h => absurd hmisaligned h⟩

/-- An execution that the decoder lets through. -/
theorem exchanges_of_end {op : ExchangeOperand} (hright : ¬ op.Misaligned)
    (hend : ExchangeEnd cpu out none op) : Exchanges cpu out op := by
  constructor
  · exact fun h => absurd h hright
  · intro _ c hc
    rcases hend with ⟨c', hc', hdone⟩ | ⟨⟨e, he⟩, -⟩
    · rw [hc] at hc'
      obtain rfl := Except.ok.inj hc'
      exact hdone
    · rw [hc] at he
      cases he
  · intro _ c hc
    rcases hend with ⟨c', hc', -⟩ | ⟨-, hrefused⟩
    · rw [hc] at hc'
      cases hc'
    · exact hrefused

/-- A misaligned operand raises `#GP`, also at an address that is not canonical. -/
theorem misaligned_fault {op : ExchangeOperand} {segment : SegmentRegisterIndex}
    (hmisaligned : op.Misaligned) (hsegment : ctx.noncanonical op.address = true → segment ≠ .ss) :
    ctx.exchangeFault hasFeature segment op op = some .gp := by
  unfold CpuContext.exchangeFault
  split_ifs with hbad
  · exact congrArg some (if_neg (hsegment hbad))
  · rfl

/-- **The checks of a plain instruction** let its execution through, or raise what the operand of
the architecture calls for. -/
theorem exchanges_of_exchangePlain (hexc : cpu.context.hasException = false)
    (hctx : ctx = cpu.context.withPrefixes bits)
    (hplain : cpu.ExchangePlain hasFeature scanned ctx offset operand form)
    {checked op : ExchangeOperand} (hop : op = ctx.archExchangeOperand offset operand form)
    (hhalf : checked.half = op.half) (hwide : op.half = 64 → checked = op)
    (hdistance : ctx.archAddressSize = 64 ∧ form.ripRelative = true → checked.address =
      op.address - (ctx.popNextRip offset operand - ctx.rip))
    (hsame : ¬ (ctx.archAddressSize = 64 ∧ form.ripRelative = true) → checked = op)
    {segment : SegmentRegisterIndex} (hsegment : op.Misaligned → ctx.noncanonical op.address = true →
      segment ≠ .ss)
    (hend : ExchangeEnd cpu out (ctx.exchangeFault hasFeature segment checked op) op) :
    Exchanges cpu out op := by
  by_cases hmisaligned : op.Misaligned
  · rw [hwide hmisaligned.1, misaligned_fault hmisaligned (hsegment hmisaligned)] at hend
    exact exchanges_of_misaligned hmisaligned hend
  have hinaccessible : ctx.noncanonical op.address = true → cpu.Unexchanged op := by
    intro hbad
    refine unexchanged_of_noncanonical ?_ ?_
    · rw [hop]
      show (if ctx.prefixBits.rexW = true then 64 else 32) = 32 ∨
        (if ctx.prefixBits.rexW = true then 64 else 32) = 64
      cases ctx.prefixBits.rexW <;> decide
    · rw [← hbad, hctx]
      rfl
  unfold CpuContext.exchangeFault at hend
  by_cases hbad : ctx.noncanonical checked.address = true
  · rw [if_pos hbad] at hend
    refine exchanges_of_raised hexc hmisaligned ?_ hend
    by_cases hrelative : ctx.archAddressSize = 64 ∧ form.ripRelative = true
    · rw [hdistance hrelative, hop] at hbad
      rw [hop]
      exact (hplain.near hrelative.1 hrelative.2).2 hbad
    · rw [hsame hrelative] at hbad
      exact hinaccessible hbad
  have haligned : ¬ checked.Misaligned := by
    intro hchecked
    rw [hwide (hhalf ▸ hchecked.1)] at hchecked
    exact hmisaligned hchecked
  rw [if_neg hbad, if_neg haligned] at hend
  by_cases hfeature : checked.half = 64 ∧ hasFeature = false
  · rw [if_pos hfeature] at hend
    refine exchanges_of_raised hexc hmisaligned ?_ hend
    rw [hop] at hhalf hmisaligned ⊢
    refine (hplain.feature (rexW_of_archExchangeOperand (hhalf ▸ hfeature.1))
      hmisaligned).resolve_left ?_
    rw [hfeature.2]
    decide
  rw [if_neg hfeature] at hend
  by_cases hlast : ctx.noncanonical op.address = true
  · rw [if_pos hlast] at hend
    exact exchanges_of_raised hexc hmisaligned (hinaccessible hlast) hend
  rw [if_neg hlast] at hend
  exact exchanges_of_end hmisaligned hend

/-- The plain instructions have the operand of the architecture, check its alignment, and do what
they should. -/
theorem meets_of_exchangePlain (hexc : cpu.context.hasException = false)
    (hctx : ctx = cpu.context.withPrefixes bits) (hsizes : ctx.prefixBits.SameSizes scanned)
    (hform : ctx.archOperand operand = some form)
    (hlength : ctx.archAddressSize = 64 → form.ripRelative = true →
      ctx.rip + BitVec.ofNat 64 n = ctx.popNextRip offset operand)
    (hplain : cpu.ExchangePlain hasFeature scanned ctx offset operand form) :
    (ctx.withPrefixes scanned).exchangeOperandOf operand n =
        some (ctx.archExchangeOperand offset operand form) ∧
      ∃ checked, (ctx.withPrefixes scanned).exchangeOperandOf operand 0 = some checked ∧
        ((ctx.archExchangeOperand offset operand form).half = 64 →
          checked = ctx.archExchangeOperand offset operand form) ∧
        (ExchangeEnd cpu out (cpu.exchangeFault hasFeature scanned operand checked
            (ctx.archExchangeOperand offset operand form))
              (ctx.archExchangeOperand offset operand form) →
          Exchanges cpu out (ctx.archExchangeOperand offset operand form)) := by
  obtain ⟨read, hother⟩ := archForm_other hform (ctx.is64BitCode && scanned.rexX)
    (ctx.is64BitCode && scanned.rexB)
  have hread : (ctx.withPrefixes scanned).archOperand operand = some read := by
    rw [← hother, ← archAddressSize_withPrefixes hsizes]
    rfl
  have hoperand := (exchangeOperandOf_iff hsizes hform hread offset n).mpr
    ⟨hplain.width, hplain.size, hplain.registers read hread, hplain.relative, hlength,
      hplain.absolute, hplain.indirect⟩
  obtain ⟨checked, hchecked, hhalf, hdistance, hsame⟩ :=
    checkedOperand_cases hsizes hform hread hoperand
  -- an operand of sixteen bytes is not relative to the instruction pointer
  have hwide : (ctx.archExchangeOperand offset operand form).half = 64 →
      checked = ctx.archExchangeOperand offset operand form := by
    intro h64
    refine hsame fun hrelative => ?_
    have hnarrow := (hplain.near hrelative.1 hrelative.2).1
    rw [rexW_of_archExchangeOperand h64] at hnarrow
    cases hnarrow
  refine ⟨hoperand, checked, hchecked, hwide, fun hend => ?_⟩
  have hsegment : (cpu.context.withPrefixes scanned).decodedAddressSize = ctx.archAddressSize := by
    rw [← hplain.size, ← decodedAddressSize_withPrefixes hsizes, hctx]
    rfl
  have hfault : cpu.exchangeFault hasFeature scanned operand checked
      (ctx.archExchangeOperand offset operand form) =
        ctx.exchangeFault hasFeature ((ctx.withPrefixes scanned).operandSegment
          (decodeModrm ctx.archAddressSize operand).operand) checked
            (ctx.archExchangeOperand offset operand form) := by
    unfold Cpu.exchangeFault
    rw [hsegment, hctx]
    rfl
  rw [hfault] at hend
  exact exchanges_of_exchangePlain hexc hctx hplain rfl hhalf hwide hdistance hsame hplain.stack hend

/-- The bytes of an operand are all there, or not, whatever the length of the instruction. -/
theorem exchangeOperandOf_some_any {code : List U8} {n : ℕ} {op : ExchangeOperand}
    (h : ctx.exchangeOperandOf code n = some op) (m : ℕ) :
    ∃ op', ctx.exchangeOperandOf code m = some op' := by
  unfold CpuContext.exchangeOperandOf at h ⊢
  dsimp only at h ⊢
  by_cases hcomplete : (decodeModrm ctx.decodedAddressSize code).complete = true
  · rw [if_pos hcomplete]
    exact ⟨_, rfl⟩
  · rw [if_neg hcomplete] at h
    cases h

/-- `CMPXCHG16B [RDI]` with `RDI` at `0x1000`. -/
def exchangeCpu : Cpu :=
  hostCpu { initCpuContext false with regs := fun r => if r = regRdi then 0x1000 else 0 } fun _ => 0

/-- `CMPXCHG16B [RIP+8]`, whose eight bytes are at `0x1000`. -/
def ripExchange : List U8 := [0x48, 0x0F, 0xC7, 0x0D, 0x08, 0x00, 0x00, 0x00]

def ripExchangeCpu : Cpu := hostCpu { initCpuContext false with rip := 0x1000 } fun _ => 0

end Law

end Cpueaxh
