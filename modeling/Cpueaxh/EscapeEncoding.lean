/-
# The encodings of the escape instructions

`cpueaxh_classify_escape_instruction` finds the class of an instruction and its size beside
the decoder.  Here the encodings of the classes are written down, prefixes, opcode and
operands, and the classifier is shown to know exactly these, with their lengths.
-/
import Cpueaxh.Escapes

namespace Cpueaxh

/-! ## Encodings -/

/-- The byte is a prefix in a mode that has REX prefixes or not. -/
def isPrefixByte (allowsRex : Bool) (b : U8) : Bool :=
  isLegacyPrefix b || (allowsRex && isRexPrefix b)

/-- The `W` bit of the last REX prefix. -/
def lastRexW (prefixes : List U8) : Bool :=
  match (prefixes.filter isRexPrefix).getLast? with
  | some rex => (rex >>> 3) &&& 1 == 1
  | none => false

/-- The opcode and the operands of an instruction of a class, behind its prefixes. -/
inductive EscapeBody (prefixes : List U8) : EscapeInsnId → List U8 → Prop where
  | int3 : EscapeBody prefixes .int3 [0xCC]
  | int1 : EscapeBody prefixes .int1 [0xF1]
  | int (vector : U8) : EscapeBody prefixes .int [0xCD, vector]
  | ud2 : EscapeBody prefixes .ud2 [0x0F, 0x0B]
  | hlt : EscapeBody prefixes .hlt [0xF4]
  | inByte (port : U8) : EscapeBody prefixes .inPort [0xE4, port]
  | inWide (port : U8) : EscapeBody prefixes .inPort [0xE5, port]
  | inByteDx : EscapeBody prefixes .inPort [0xEC]
  | inWideDx : EscapeBody prefixes .inPort [0xED]
  | insByte : EscapeBody prefixes .ins [0x6C]
  | insWide : EscapeBody prefixes .ins [0x6D]
  | outByte (port : U8) : EscapeBody prefixes .outPort [0xE6, port]
  | outWide (port : U8) : EscapeBody prefixes .outPort [0xE7, port]
  | outByteDx : EscapeBody prefixes .outPort [0xEE]
  | outWideDx : EscapeBody prefixes .outPort [0xEF]
  | syscall : EscapeBody prefixes .syscall [0x0F, 0x05]
  | sysenter : EscapeBody prefixes .sysenter [0x0F, 0x34]
  | cpuid : EscapeBody prefixes .cpuid [0x0F, 0xA2]
  | rdtsc : EscapeBody prefixes .rdtsc [0x0F, 0x31]
  | xgetbv : EscapeBody prefixes .xgetbv [0x0F, 0x01, 0xD0]
  | rdtscp : EscapeBody prefixes .rdtscp [0x0F, 0x01, 0xF9]
  | rdrand (modrm : U8) (h : registerFormReg modrm = some 6) :
    EscapeBody prefixes .rdrand [0x0F, 0xC7, modrm]
  | readcrx (modrm : U8) : EscapeBody prefixes .readcrx [0x0F, 0x20, modrm]
  | writecrx (modrm : U8) : EscapeBody prefixes .writecrx [0x0F, 0x22, modrm]
  | rdssp (modrm : U8) (h : registerFormReg modrm = some 1) (hrep : 0xF3 ∈ prefixes)
    (hlock : 0xF0 ∉ prefixes) :
    EscapeBody prefixes (if lastRexW prefixes then .rdsspq else .rdsspd) [0x0F, 0x1E, modrm]

/-- The bytes begin with an instruction of a class, which has the length. -/
def EscapeEncoding (allowsRex : Bool) (bytes : List U8) (id : EscapeInsnId) (length : ℕ) : Prop :=
  ∃ prefixes body rest, bytes = prefixes ++ (body ++ rest) ∧
    (∀ b ∈ prefixes, isPrefixByte allowsRex b = true) ∧ EscapeBody prefixes id body ∧
    length = prefixes.length + body.length

/-! ## Prefixes -/

theorem prefixes_append (allowsRex : Bool) (bytes : List U8) :
    instructionPrefixes allowsRex bytes ++ afterPrefixes allowsRex bytes = bytes :=
  List.prefix_iff_eq_append.mp (List.takeWhile_prefix _)

theorem mem_prefixes {allowsRex : Bool} {bytes : List U8} {b : U8}
    (h : b ∈ instructionPrefixes allowsRex bytes) : isPrefixByte allowsRex b = true :=
  List.all_eq_true.mp List.all_takeWhile b h

/-- Prefixes before a byte that is none. -/
theorem instructionPrefixes_append {allowsRex : Bool} {prefixes : List U8} {b : U8}
    (rest : List U8) (hall : ∀ b ∈ prefixes, isPrefixByte allowsRex b = true)
    (hb : isPrefixByte allowsRex b = false) :
    instructionPrefixes allowsRex (prefixes ++ b :: rest) = prefixes := by
  show List.takeWhile (isPrefixByte allowsRex) (prefixes ++ b :: rest) = prefixes
  rw [List.takeWhile_append_of_pos hall, List.takeWhile_cons_of_neg, List.append_nil]
  simp [hb]

theorem afterPrefixes_append {allowsRex : Bool} {prefixes : List U8} {b : U8} (rest : List U8)
    (hall : ∀ b ∈ prefixes, isPrefixByte allowsRex b = true)
    (hb : isPrefixByte allowsRex b = false) :
    afterPrefixes allowsRex (prefixes ++ b :: rest) = b :: rest := by
  unfold afterPrefixes
  rw [instructionPrefixes_append rest hall hb, List.drop_left]

/-- Where REX bytes are no prefixes, no byte before a two-byte opcode is one of them, and so
a scan that takes them for prefixes finds the same. -/
theorem prefixes_rex {allowsRex : Bool} {bytes rest : List U8}
    (h : afterPrefixes allowsRex bytes = 0x0F :: rest) :
    instructionPrefixes true bytes = instructionPrefixes allowsRex bytes ∧
      afterPrefixes true bytes = afterPrefixes allowsRex bytes := by
  have hall : ∀ b ∈ instructionPrefixes allowsRex bytes, isPrefixByte true b = true := by
    intro b hb
    have hskipped := mem_prefixes hb
    unfold isPrefixByte at hskipped ⊢
    cases allowsRex
    · simp only [Bool.false_and, Bool.or_false] at hskipped
      rw [hskipped]
      rfl
    · exact hskipped
  have hbytes : bytes = instructionPrefixes allowsRex bytes ++ 0x0F :: rest := by
    rw [← h, prefixes_append]
  constructor
  · calc instructionPrefixes true bytes
      _ = instructionPrefixes true (instructionPrefixes allowsRex bytes ++ 0x0F :: rest) := by
        rw [← hbytes]
      _ = instructionPrefixes allowsRex bytes := instructionPrefixes_append rest hall rfl
  · calc afterPrefixes true bytes
      _ = afterPrefixes true (instructionPrefixes allowsRex bytes ++ 0x0F :: rest) := by
        rw [← hbytes]
      _ = 0x0F :: rest := afterPrefixes_append rest hall rfl
      _ = afterPrefixes allowsRex bytes := h.symm

/-! ## Opcodes -/

/-- A two-byte opcode is not a byte. -/
theorem byte_ne_twoByte : ∀ b : U8, ((0x0F00 : U16) ||| b.setWidth 16) >>> 8 = 0x0F ∧
    ((0x0F00 : U16) ||| b.setWidth 16).setWidth 8 = b ∧ (b.setWidth 16) >>> 8 = (0 : U16) ∧
      (b.setWidth 16).setWidth 8 = b := by
  decide +kernel

variable {ctx : CpuContext} {bytes : List U8} {prefixLen : ℕ}

/-- What is behind the prefixes of an instruction with an opcode of one byte. -/
theorem peekOpcode_byte {opc : U16} {b : U8} (hopc : opc = b.setWidth 16)
    (h : peekOpcode ctx bytes = some (opc, prefixLen)) :
    prefixLen = (instructionPrefixes ctx.is64BitCode bytes).length ∧
      ∃ rest, afterPrefixes ctx.is64BitCode bytes = b :: rest := by
  unfold peekOpcode at h
  simp only at h
  split at h
  · cases h
  · rename_i c hc
    obtain ⟨hwidth, rfl⟩ := Prod.mk.inj (Option.some.inj h)
    have hcb : c = b := by
      rw [← (byte_ne_twoByte c).2.2.2, ← (byte_ne_twoByte b).2.2.2, hwidth, hopc]
    exact ⟨rfl, [], by rw [hc, hcb]⟩
  · rename_i c c' rest hc
    obtain ⟨hwidth, rfl⟩ := Prod.mk.inj (Option.some.inj h)
    split_ifs at hwidth with hesc
    · exfalso
      have hhigh := (byte_ne_twoByte c').1
      rw [hwidth, hopc, (byte_ne_twoByte b).2.2.1] at hhigh
      cases hhigh
    · have hcb : c = b := by
        rw [← (byte_ne_twoByte c).2.2.2, ← (byte_ne_twoByte b).2.2.2, hwidth, hopc]
      exact ⟨rfl, c' :: rest, by rw [hc, hcb]⟩

/-- What is behind the prefixes of an instruction with an opcode of two bytes. -/
theorem peekOpcode_twoByte {opc : U16} {b : U8} (hopc : opc = 0x0F00 ||| b.setWidth 16)
    (h : peekOpcode ctx bytes = some (opc, prefixLen)) :
    prefixLen = (instructionPrefixes ctx.is64BitCode bytes).length ∧
      ∃ rest, afterPrefixes ctx.is64BitCode bytes = 0x0F :: b :: rest := by
  have hbyte : ∀ c : U8, c.setWidth 16 ≠ opc := by
    intro c hc
    have hhigh := (byte_ne_twoByte b).1
    rw [← hopc, ← hc, (byte_ne_twoByte c).2.2.1] at hhigh
    cases hhigh
  unfold peekOpcode at h
  simp only at h
  split at h
  · cases h
  · rename_i c hc
    exact absurd (Prod.mk.inj (Option.some.inj h)).1 (hbyte c)
  · rename_i c c' rest hc
    obtain ⟨hwidth, rfl⟩ := Prod.mk.inj (Option.some.inj h)
    split_ifs at hwidth with hesc
    · have hcb : c' = b := by
        rw [← (byte_ne_twoByte c').2.1, ← (byte_ne_twoByte b).2.1, hwidth, hopc]
      exact ⟨rfl, rest, by rw [hc, hesc, hcb]⟩
    · exact absurd hwidth (hbyte c)

/-! ## The classifier -/

/-- What stands behind the prefixes is an encoding. -/
theorem encoding_of_after {allowsRex : Bool} {id : EscapeInsnId} {body : List U8} (rest : List U8)
    (hafter : afterPrefixes allowsRex bytes = body ++ rest)
    (hbody : EscapeBody (instructionPrefixes allowsRex bytes) id body) :
    EscapeEncoding allowsRex bytes id
      ((instructionPrefixes allowsRex bytes).length + body.length) :=
  ⟨_, body, rest, by rw [← hafter, prefixes_append], fun _ => mem_prefixes, hbody, rfl⟩

/-- A byte behind the prefixes. -/
theorem getElem_after {allowsRex : Bool} (k : ℕ) :
    bytes[(instructionPrefixes allowsRex bytes).length + k]? =
      (afterPrefixes allowsRex bytes)[k]? := by
  unfold afterPrefixes
  rw [List.getElem?_drop]

theorem length_after (allowsRex : Bool) (bytes : List U8) :
    bytes.length = (instructionPrefixes allowsRex bytes).length +
      (afterPrefixes allowsRex bytes).length := by
  rw [← List.length_append, prefixes_append]

section Forms

variable {opc : U16} {id : EscapeInsnId} {b : U8}

/-- An opcode of one byte without an operand. -/
theorem encoding_byte (hpeek : peekOpcode ctx bytes = some (opc, prefixLen))
    (hopc : opc = b.setWidth 16)
    (hbody : EscapeBody (instructionPrefixes ctx.is64BitCode bytes) id [b]) :
    EscapeEncoding ctx.is64BitCode bytes id (prefixLen + 1) := by
  obtain ⟨rfl, rest, hafter⟩ := peekOpcode_byte hopc hpeek
  exact encoding_of_after rest hafter hbody

/-- An opcode of one byte with a byte of operand. -/
theorem encoding_immediate (hpeek : peekOpcode ctx bytes = some (opc, prefixLen))
    (hopc : opc = b.setWidth 16) (hlength : prefixLen + 2 ≤ bytes.length)
    (hbody : ∀ imm, EscapeBody (instructionPrefixes ctx.is64BitCode bytes) id [b, imm]) :
    EscapeEncoding ctx.is64BitCode bytes id (prefixLen + 2) := by
  obtain ⟨rfl, rest, hafter⟩ := peekOpcode_byte hopc hpeek
  rw [length_after ctx.is64BitCode bytes, hafter] at hlength
  cases rest with
  | nil =>
    simp at hlength
  | cons imm rest => exact encoding_of_after rest hafter (hbody imm)

/-- An opcode of two bytes without an operand. -/
theorem encoding_twoByte (hpeek : peekOpcode ctx bytes = some (opc, prefixLen))
    (hopc : opc = 0x0F00 ||| b.setWidth 16)
    (hbody : EscapeBody (instructionPrefixes ctx.is64BitCode bytes) id [0x0F, b]) :
    EscapeEncoding ctx.is64BitCode bytes id (prefixLen + 2) := by
  obtain ⟨rfl, rest, hafter⟩ := peekOpcode_twoByte hopc hpeek
  exact encoding_of_after rest hafter hbody

/-- An opcode of two bytes with a third one. -/
theorem encoding_third (hpeek : peekOpcode ctx bytes = some (opc, prefixLen))
    (hopc : opc = 0x0F00 ||| b.setWidth 16) {third : U8}
    (hthird : bytes[prefixLen + 2]? = some third)
    (hbody : EscapeBody (instructionPrefixes ctx.is64BitCode bytes) id [0x0F, b, third]) :
    EscapeEncoding ctx.is64BitCode bytes id (prefixLen + 3) := by
  obtain ⟨rfl, rest, hafter⟩ := peekOpcode_twoByte hopc hpeek
  rw [getElem_after, hafter] at hthird
  cases rest with
  | nil => cases hthird
  | cons c rest =>
    obtain rfl : c = third := Option.some.inj hthird
    exact encoding_of_after rest hafter hbody

/-- An opcode of two bytes with a ModRM byte of any form. -/
theorem encoding_modrm (hpeek : peekOpcode ctx bytes = some (opc, prefixLen))
    (hopc : opc = 0x0F00 ||| b.setWidth 16) (hlength : prefixLen + 3 ≤ bytes.length)
    (hbody : ∀ modrm, EscapeBody (instructionPrefixes ctx.is64BitCode bytes) id [0x0F, b, modrm]) :
    EscapeEncoding ctx.is64BitCode bytes id (prefixLen + 3) :=
  encoding_third hpeek hopc (List.getElem?_eq_getElem (by omega)) (hbody _)

/-- `RDRAND` behind its opcode. -/
theorem encoding_rdrand (hpeek : peekOpcode ctx bytes = some (0x0FC7, prefixLen))
    (h : isRdrandInstruction bytes = true) :
    EscapeEncoding ctx.is64BitCode bytes .rdrand (prefixLen + 3) := by
  obtain ⟨rfl, rest, hafter⟩ := peekOpcode_twoByte (b := 0xC7) rfl hpeek
  unfold isRdrandInstruction at h
  rw [(prefixes_rex hafter).2, hafter] at h
  cases rest with
  | nil => cases h
  | cons modrm rest =>
    simp only [beq_self_eq_true, Bool.true_and, beq_iff_eq] at h
    exact encoding_of_after rest hafter (.rdrand modrm h)

/-- `RDSSP` behind its opcode. -/
theorem encoding_rdssp (hpeek : peekOpcode ctx bytes = some (0x0F1E, prefixLen)) {is64 : Bool}
    {size : ℕ} (h : isRdsspInstruction bytes = some (is64, size)) :
    EscapeEncoding ctx.is64BitCode bytes (if is64 then .rdsspq else .rdsspd) size := by
  obtain ⟨rfl, rest, hafter⟩ := peekOpcode_twoByte (b := 0x1E) rfl hpeek
  unfold isRdsspInstruction at h
  rw [(prefixes_rex hafter).1, (prefixes_rex hafter).2, hafter] at h
  cases rest with
  | nil => cases h
  | cons modrm rest =>
    simp only [beq_self_eq_true, Bool.and_true, Option.ite_none_right_eq_some, Bool.and_eq_true,
      Bool.not_eq_true', List.contains_eq_mem, decide_eq_false_iff_not, decide_eq_true_eq,
      beq_iff_eq, Option.some.injEq, Prod.mk.injEq] at h
    obtain ⟨⟨⟨hlock, hrep⟩, hreg⟩, rfl, rfl⟩ := h
    exact encoding_of_after rest hafter (.rdssp modrm hreg hrep hlock)

end Forms

/-- **Every instruction that is classified** is an encoding of its class, with the size as
its length. -/
theorem encoding_of_classified {id : EscapeInsnId} {size : ℕ}
    (h : classifyEscapeInstruction ctx bytes = some (id, size)) :
    EscapeEncoding ctx.is64BitCode bytes id size := by
  unfold classifyEscapeInstruction at h
  split at h
  · cases h
  rename_i opc prefixLen hpeek
  dsimp only at h
  rcases ite_eq_iff.mp h with ⟨hint3, h⟩ | ⟨-, h⟩
  · obtain ⟨rfl, rfl⟩ := Prod.mk.inj (Option.some.inj h)
    exact encoding_byte (b := 0xCC) hpeek hint3 .int3
  rcases ite_eq_iff.mp h with ⟨hint1, h⟩ | ⟨-, h⟩
  · obtain ⟨rfl, rfl⟩ := Prod.mk.inj (Option.some.inj h)
    exact encoding_byte (b := 0xF1) hpeek hint1 .int1
  rcases ite_eq_iff.mp h with ⟨⟨hint, hlength⟩, h⟩ | ⟨-, h⟩
  · obtain ⟨rfl, rfl⟩ := Prod.mk.inj (Option.some.inj h)
    exact encoding_immediate (b := 0xCD) hpeek hint hlength .int
  rcases ite_eq_iff.mp h with ⟨hud2, h⟩ | ⟨-, h⟩
  · obtain ⟨rfl, rfl⟩ := Prod.mk.inj (Option.some.inj h)
    exact encoding_twoByte (b := 0x0B) hpeek hud2 .ud2
  rcases ite_eq_iff.mp h with ⟨hhlt, h⟩ | ⟨-, h⟩
  · obtain ⟨rfl, rfl⟩ := Prod.mk.inj (Option.some.inj h)
    exact encoding_byte (b := 0xF4) hpeek hhlt .hlt
  rcases ite_eq_iff.mp h with ⟨hin, h⟩ | ⟨-, h⟩
  · obtain ⟨hlength, h⟩ := Option.ite_none_right_eq_some.mp h
    obtain ⟨rfl, rfl⟩ := Prod.mk.inj (Option.some.inj h)
    rcases hin with hin | hin
    · exact encoding_immediate (b := 0xE4) hpeek hin hlength .inByte
    · exact encoding_immediate (b := 0xE5) hpeek hin hlength .inWide
  rcases ite_eq_iff.mp h with ⟨hin, h⟩ | ⟨-, h⟩
  · obtain ⟨rfl, rfl⟩ := Prod.mk.inj (Option.some.inj h)
    rcases hin with hin | hin
    · exact encoding_byte (b := 0xEC) hpeek hin .inByteDx
    · exact encoding_byte (b := 0xED) hpeek hin .inWideDx
  rcases ite_eq_iff.mp h with ⟨hins, h⟩ | ⟨-, h⟩
  · obtain ⟨rfl, rfl⟩ := Prod.mk.inj (Option.some.inj h)
    rcases hins with hins | hins
    · exact encoding_byte (b := 0x6C) hpeek hins .insByte
    · exact encoding_byte (b := 0x6D) hpeek hins .insWide
  rcases ite_eq_iff.mp h with ⟨hout, h⟩ | ⟨-, h⟩
  · obtain ⟨hlength, h⟩ := Option.ite_none_right_eq_some.mp h
    obtain ⟨rfl, rfl⟩ := Prod.mk.inj (Option.some.inj h)
    rcases hout with hout | hout
    · exact encoding_immediate (b := 0xE6) hpeek hout hlength .outByte
    · exact encoding_immediate (b := 0xE7) hpeek hout hlength .outWide
  rcases ite_eq_iff.mp h with ⟨hout, h⟩ | ⟨-, h⟩
  · obtain ⟨rfl, rfl⟩ := Prod.mk.inj (Option.some.inj h)
    rcases hout with hout | hout
    · exact encoding_byte (b := 0xEE) hpeek hout .outByteDx
    · exact encoding_byte (b := 0xEF) hpeek hout .outWideDx
  rcases ite_eq_iff.mp h with ⟨hsyscall, h⟩ | ⟨-, h⟩
  · obtain ⟨rfl, rfl⟩ := Prod.mk.inj (Option.some.inj h)
    exact encoding_twoByte (b := 0x05) hpeek hsyscall .syscall
  rcases ite_eq_iff.mp h with ⟨hsysenter, h⟩ | ⟨-, h⟩
  · obtain ⟨rfl, rfl⟩ := Prod.mk.inj (Option.some.inj h)
    exact encoding_twoByte (b := 0x34) hpeek hsysenter .sysenter
  rcases ite_eq_iff.mp h with ⟨hcpuid, h⟩ | ⟨-, h⟩
  · obtain ⟨rfl, rfl⟩ := Prod.mk.inj (Option.some.inj h)
    exact encoding_twoByte (b := 0xA2) hpeek hcpuid .cpuid
  rcases ite_eq_iff.mp h with ⟨hrdtsc, h⟩ | ⟨-, h⟩
  · obtain ⟨rfl, rfl⟩ := Prod.mk.inj (Option.some.inj h)
    exact encoding_twoByte (b := 0x31) hpeek hrdtsc .rdtsc
  rcases ite_eq_iff.mp h with ⟨⟨hxgetbv, hthird⟩, h⟩ | ⟨-, h⟩
  · obtain ⟨rfl, rfl⟩ := Prod.mk.inj (Option.some.inj h)
    exact encoding_third (b := 0x01) hpeek hxgetbv hthird .xgetbv
  rcases ite_eq_iff.mp h with ⟨⟨hrdtscp, hthird⟩, h⟩ | ⟨-, h⟩
  · obtain ⟨rfl, rfl⟩ := Prod.mk.inj (Option.some.inj h)
    exact encoding_third (b := 0x01) hpeek hrdtscp hthird .rdtscp
  rcases ite_eq_iff.mp h with ⟨⟨hrdrand, hmodrm⟩, h⟩ | ⟨-, h⟩
  · obtain ⟨rfl, rfl⟩ := Prod.mk.inj (Option.some.inj h)
    exact encoding_rdrand (hrdrand ▸ hpeek) hmodrm
  rcases ite_eq_iff.mp h with ⟨⟨hreadcrx, hlength⟩, h⟩ | ⟨-, h⟩
  · obtain ⟨rfl, rfl⟩ := Prod.mk.inj (Option.some.inj h)
    exact encoding_modrm (b := 0x20) hpeek hreadcrx hlength .readcrx
  rcases ite_eq_iff.mp h with ⟨⟨hwritecrx, hlength⟩, h⟩ | ⟨-, h⟩
  · obtain ⟨rfl, rfl⟩ := Prod.mk.inj (Option.some.inj h)
    exact encoding_modrm (b := 0x22) hpeek hwritecrx hlength .writecrx
  obtain ⟨hrdssp, h⟩ := Option.ite_none_right_eq_some.mp h
  split at h
  · rename_i is64 size' hinstruction
    obtain ⟨rfl, rfl⟩ := Prod.mk.inj (Option.some.inj h)
    exact encoding_rdssp (hrdssp ▸ hpeek) hinstruction
  · cases h

/-- No opcode of a class is a prefix. -/
theorem EscapeBody.head {prefixes : List U8} {id : EscapeInsnId} {body : List U8}
    (h : EscapeBody prefixes id body) (allowsRex : Bool) :
    ∃ b operands, body = b :: operands ∧ isPrefixByte allowsRex b = false := by
  cases h <;> exact ⟨_, _, rfl, by cases allowsRex <;> rfl⟩

/-- The opcode that the classifier reads, of one byte. -/
theorem peekOpcode_of_byte {b : U8} {rest : List U8}
    (hafter : afterPrefixes ctx.is64BitCode bytes = b :: rest) (hb : b ≠ 0x0F) :
    peekOpcode ctx bytes =
      some (b.setWidth 16, (instructionPrefixes ctx.is64BitCode bytes).length) := by
  unfold peekOpcode
  rw [hafter]
  cases rest with
  | nil => rfl
  | cons b' rest =>
    simp only
    rw [if_neg hb]

/-- The opcode that the classifier reads, of two bytes. -/
theorem peekOpcode_of_twoByte {b : U8} {rest : List U8}
    (hafter : afterPrefixes ctx.is64BitCode bytes = 0x0F :: b :: rest) :
    peekOpcode ctx bytes =
      some (0x0F00 ||| b.setWidth 16, (instructionPrefixes ctx.is64BitCode bytes).length) := by
  unfold peekOpcode
  rw [hafter]
  rfl

/-- **The classifier** knows every encoding of every class, with its length. -/
theorem classify_iff_encoding (ctx : CpuContext) (bytes : List U8) (id : EscapeInsnId)
    (length : ℕ) : classifyEscapeInstruction ctx bytes = some (id, length) ↔
      EscapeEncoding ctx.is64BitCode bytes id length := by
  refine ⟨encoding_of_classified, ?_⟩
  rintro ⟨prefixes, body, rest, hbytes, hall, hbody, rfl⟩
  obtain ⟨b, operands, rfl, hb⟩ := hbody.head ctx.is64BitCode
  have hprefixes := instructionPrefixes_append (operands ++ rest) hall hb
  have hafter := afterPrefixes_append (operands ++ rest) hall hb
  rw [← List.cons_append, ← hbytes] at hprefixes hafter
  have hlength := length_after ctx.is64BitCode bytes
  have hthird := @getElem_after bytes ctx.is64BitCode 2
  rw [hprefixes, hafter] at hlength hthird
  unfold classifyEscapeInstruction
  cases hbody with
  | rdrand modrm hreg =>
    have hrdrand : isRdrandInstruction bytes = true := by
      unfold isRdrandInstruction
      rw [(prefixes_rex hafter).2, hafter]
      simp [hreg]
    rw [peekOpcode_of_twoByte hafter, hprefixes]
    simp [hrdrand]
  | rdssp modrm hreg hrep hlock =>
    have hrdssp : isRdsspInstruction bytes = some (lastRexW prefixes, prefixes.length + 3) := by
      unfold isRdsspInstruction
      rw [(prefixes_rex hafter).1, (prefixes_rex hafter).2, hprefixes, hafter]
      have hcond : (!prefixes.contains 0xF0 && prefixes.contains 0xF3 && (0x0F : U8) == 0x0F
          && (0x1E : U8) == 0x1E && registerFormReg modrm == some 1) = true := by
        simp only [List.contains_eq_mem, hlock, hrep, hreg]
        rfl
      exact if_pos hcond
    rw [peekOpcode_of_twoByte hafter, hprefixes]
    simp [hrdssp]
  | xgetbv | rdtscp =>
    rw [peekOpcode_of_twoByte hafter, hprefixes]
    simp only [hthird]
    simp
  | ud2 | syscall | sysenter | cpuid | rdtsc | readcrx | writecrx =>
    rw [peekOpcode_of_twoByte hafter, hprefixes]
    simp [hlength]
  | _ =>
    rw [peekOpcode_of_byte hafter (by decide), hprefixes]
    simp [hlength]

end Cpueaxh
