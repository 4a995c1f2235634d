/-
# Failure records

The text that the test program writes for a failure.  Its fields stand in the order of the
source, and each section that is written only when the failure has it is a definition of its
own.
-/
import Cpueaxh.HostMemory
import Cpueaxh.JsonGrammar

namespace Cpueaxh

open JsonGrammar (Text)

/-! ## Numbers and strings -/

/-- An unsigned number as a stream writes it. -/
def decimalText (value : ℕ) : Text := Nat.toDigits 10 value

/-- A number in hexadecimal, filled with zeros up to a width. -/
def hexText (width value : ℕ) : Text :=
  List.replicate (width - (Nat.toDigits 16 value).length) '0' ++ Nat.toDigits 16 value

def hex64 (value : U64) : Text := "0x".toList ++ hexText 16 value.toNat

/-- What a character of a string is written as. -/
def jsonEscapeChar (ch : Char) : Text :=
  if ch = '\\' then ['\\', '\\']
  else if ch = '"' then ['\\', '"']
  else if ch = Char.ofNat 8 then ['\\', 'b']
  else if ch = Char.ofNat 12 then ['\\', 'f']
  else if ch = '\n' then ['\\', 'n']
  else if ch = '\r' then ['\\', 'r']
  else if ch = '\t' then ['\\', 't']
  else if ch.toNat < 0x20 then '\\' :: 'u' :: hexText 4 ch.toNat
  else [ch]

def jsonEscape (value : Text) : Text := value.flatMap jsonEscapeChar

def jsonBool (value : Bool) : Text := if value then "true".toList else "false".toList

def gprNameByIndex (index : ℕ) : Text :=
  (["rax".toList, "rcx".toList, "rdx".toList, "rbx".toList, "rsp".toList, "rbp".toList,
    "rsi".toList, "rdi".toList, "r8".toList, "r9".toList, "r10".toList, "r11".toList,
    "r12".toList, "r13".toList, "r14".toList, "r15".toList][index]?).getD "unknown".toList

/-! ## Failures -/

structure Failure where
  caseName : Text
  detail : Text
  specName : Text
  imageHex : Text
  initialRegs : Fin 16 → U64
  initialXmmHex : Fin 16 → Text
  initialDataHex : Text
  nativeResultRegs : Fin 16 → U64
  emuResultRegs : Fin 16 → U64
  nativeResultDataHex : Text
  emuResultDataHex : Text
  seed : U64
  seedIndex : U64
  initialRip : U64
  initialRflags : U64
  initialMxcsr : U32
  initialDataOffset : U32
  nativeResultRip : U64
  nativeResultRflags : U64
  nativeResultMxcsr : U32
  emuResultRip : U64
  emuResultRflags : U64
  emuResultMxcsr : U32
  hostVendor : Text
  hostBrand : Text
  hostMaxLeaf : U32
  hostMaxLeaf7 : U32
  hostMaxExtendedLeaf : U32
  hostFamily : U32
  hostModel : U32
  hostStepping : U32
  hostFeatureAvx : Bool
  hostFeatureAvx2 : Bool
  hostFeatureFma : Bool
  hostFeatureSha : Bool
  hostFeaturePopcnt : Bool
  hostFeatureSsse3 : Bool
  hostFeatureSse41 : Bool
  hostFeatureSse42 : Bool
  hostFeatureAes : Bool
  hostFeatureRdpid : Bool
  hostFeatureBmi1 : Bool
  hostFeatureBmi2 : Bool
  hostFeatureRdseed : Bool
  hostFeatureFsgsbase : Bool
  hostFeatureSerialize : Bool
  hostFeatureLzcnt : Bool
  hostFeatureMovbe : Bool
  hasSeed : Bool
  hasSeedIndex : Bool
  hasInitialState : Bool
  hasResultState : Bool
  hasHostFeatures : Bool

/-! ## The text of a record -/

/-- What stands in front of a value: blanks, the key in quotes, a colon and a blank. -/
def fieldName (width : ℕ) (key : String) : Text :=
  List.replicate width ' ' ++ '"' :: key.toList ++ ['"', ':', ' ']

/-- A field whose value is written in quotes. -/
def stringField (width : ℕ) (key : String) (value : Text) : Text :=
  fieldName width key ++ '"' :: value ++ ['"']

example : stringField 4 "rip" ['0', 'x', '1'] = "    \"rip\": \"0x1\"".toList := by decide

/-- What a stream holds after the pieces were put into it one after the other. -/
def stream (pieces : List Text) : Text := pieces.flatten

/-- The registers of a state, each on a line of its own. -/
def writeGprs (width : ℕ) (regs : Fin 16 → U64) : Text :=
  stream ((List.finRange 16).map fun index : Fin 16 =>
    stream [if index ≠ 0 then [','] else [], ['\n'], List.replicate width ' ',
      '"' :: gprNameByIndex index.val, ['"', ':', ' ', '"'], hex64 (regs index), ['"']])

def writeXmm (initialXmmHex : Fin 16 → Text) : Text :=
  stream ((List.finRange 16).map fun index : Fin 16 =>
    stream [if index ≠ 0 then [','] else [], ['\n'], List.replicate 6 ' ', ['"'],
      jsonEscape (initialXmmHex index), ['"']])

def writeInitialState (failure : Failure) : Text :=
  stream [
    [',', '\n'], fieldName 2 "initial_state", ['{', '\n'],
    stringField 4 "schema" "cpueaxh.generated-initial-state.v1".toList, [',', '\n'],
    fieldName 4 "gprs", ['{'],
    writeGprs 6 failure.initialRegs,
    ['\n'], List.replicate 4 ' ', ['}', ',', '\n'],
    stringField 4 "rip" (hex64 failure.initialRip), [',', '\n'],
    stringField 4 "rflags" (hex64 failure.initialRflags), [',', '\n'],
    stringField 4 "mxcsr" (hex64 (failure.initialMxcsr.setWidth 64)), [',', '\n'],
    fieldName 4 "xmm", ['['],
    writeXmm failure.initialXmmHex,
    ['\n'], List.replicate 4 ' ', [']', ',', '\n'],
    fieldName 4 "data_offset", decimalText failure.initialDataOffset.toNat, [',', '\n'],
    stringField 4 "data_hex" (jsonEscape failure.initialDataHex), ['\n'],
    List.replicate 2 ' ', ['}']]

/-- The fields of one of the two results. -/
def writeResultEntry (regs : Fin 16 → U64) (rip rflags : U64) (mxcsr : U32) (dataHex : Text) :
    Text :=
  stream [
    fieldName 6 "gprs", ['{'],
    writeGprs 8 regs,
    ['\n'], List.replicate 6 ' ', ['}', ',', '\n'],
    stringField 6 "rip" (hex64 rip), [',', '\n'],
    stringField 6 "rflags" (hex64 rflags), [',', '\n'],
    stringField 6 "mxcsr" (hex64 (mxcsr.setWidth 64)), [',', '\n'],
    stringField 6 "data_hex" (jsonEscape dataHex), ['\n']]

def writeResultState (failure : Failure) : Text :=
  stream [
    [',', '\n'], fieldName 2 "result_state", ['{', '\n'],
    stringField 4 "schema" "cpueaxh.generated-result-state.v1".toList, [',', '\n'],
    fieldName 4 "native_result", ['{', '\n'],
    writeResultEntry failure.nativeResultRegs failure.nativeResultRip failure.nativeResultRflags
      failure.nativeResultMxcsr failure.nativeResultDataHex,
    List.replicate 4 ' ', ['}', ',', '\n'],
    fieldName 4 "emu_result", ['{', '\n'],
    writeResultEntry failure.emuResultRegs failure.emuResultRip failure.emuResultRflags
      failure.emuResultMxcsr failure.emuResultDataHex,
    List.replicate 4 ' ', ['}', '\n'],
    List.replicate 2 ' ', ['}']]

def writeFeatures (failure : Failure) : Text :=
  stream [
    fieldName 4 "features", ['{', '\n'],
    fieldName 6 "avx", jsonBool failure.hostFeatureAvx, [',', '\n'],
    fieldName 6 "avx2", jsonBool failure.hostFeatureAvx2, [',', '\n'],
    fieldName 6 "fma", jsonBool failure.hostFeatureFma, [',', '\n'],
    fieldName 6 "sha", jsonBool failure.hostFeatureSha, [',', '\n'],
    fieldName 6 "popcnt", jsonBool failure.hostFeaturePopcnt, [',', '\n'],
    fieldName 6 "ssse3", jsonBool failure.hostFeatureSsse3, [',', '\n'],
    fieldName 6 "sse41", jsonBool failure.hostFeatureSse41, [',', '\n'],
    fieldName 6 "sse42", jsonBool failure.hostFeatureSse42, [',', '\n'],
    fieldName 6 "aes", jsonBool failure.hostFeatureAes, [',', '\n'],
    fieldName 6 "rdpid", jsonBool failure.hostFeatureRdpid, [',', '\n'],
    fieldName 6 "bmi1", jsonBool failure.hostFeatureBmi1, [',', '\n'],
    fieldName 6 "bmi2", jsonBool failure.hostFeatureBmi2, [',', '\n'],
    fieldName 6 "rdseed", jsonBool failure.hostFeatureRdseed, [',', '\n'],
    fieldName 6 "fsgsbase", jsonBool failure.hostFeatureFsgsbase, [',', '\n'],
    fieldName 6 "serialize", jsonBool failure.hostFeatureSerialize, [',', '\n'],
    fieldName 6 "lzcnt", jsonBool failure.hostFeatureLzcnt, [',', '\n'],
    fieldName 6 "movbe", jsonBool failure.hostFeatureMovbe, ['\n'],
    List.replicate 4 ' ', ['}', '\n']]

def writeHostFeatures (failure : Failure) : Text :=
  stream [
    [',', '\n'], fieldName 2 "host_features", ['{', '\n'],
    stringField 4 "schema" "cpueaxh.host-features.v1".toList, [',', '\n'],
    stringField 4 "vendor" (jsonEscape failure.hostVendor), [',', '\n'],
    stringField 4 "brand" (jsonEscape failure.hostBrand), [',', '\n'],
    fieldName 4 "max_leaf", decimalText failure.hostMaxLeaf.toNat, [',', '\n'],
    fieldName 4 "max_leaf7", decimalText failure.hostMaxLeaf7.toNat, [',', '\n'],
    fieldName 4 "max_extended_leaf", decimalText failure.hostMaxExtendedLeaf.toNat, [',', '\n'],
    fieldName 4 "family", decimalText failure.hostFamily.toNat, [',', '\n'],
    fieldName 4 "model", decimalText failure.hostModel.toNat, [',', '\n'],
    fieldName 4 "stepping", decimalText failure.hostStepping.toNat, [',', '\n'],
    writeFeatures failure,
    List.replicate 2 ' ', ['}']]

/-- The characters that `write_failure_record` puts into its stream. -/
def writeFailureRecord (failure : Failure) : Text :=
  stream [
    ['{', '\n'],
    stringField 2 "schema" "cpueaxh.failure.v1".toList, [',', '\n'],
    stringField 2 "case_name" (jsonEscape failure.caseName), [',', '\n'],
    stringField 2 "detail" (jsonEscape failure.detail),
    if failure.specName ≠ [] then
      stream [[',', '\n'], stringField 2 "spec_name" (jsonEscape failure.specName)]
    else [],
    if failure.hasSeedIndex then
      stream [[',', '\n'], fieldName 2 "seed_index", decimalText failure.seedIndex.toNat]
    else [],
    if failure.hasSeed then
      stream [[',', '\n'], stringField 2 "seed" (decimalText failure.seed.toNat)]
    else [],
    if failure.imageHex ≠ [] then
      stream [[',', '\n'], stringField 2 "image_hex" (jsonEscape failure.imageHex)]
    else [],
    if failure.hasInitialState then writeInitialState failure else [],
    if failure.hasResultState then writeResultState failure else [],
    if failure.hasHostFeatures then writeHostFeatures failure else [],
    if failure.specName ≠ [] ∧ failure.hasSeedIndex then
      stream [[',', '\n'], stringField 2 "case_selector" (jsonEscape failure.specName),
        [',', '\n'], stringField 2 "replay_hint"
          (stream ["test.exe --case ".toList, jsonEscape failure.specName,
            " --seed-index ".toList, decimalText failure.seedIndex.toNat])]
    else [],
    ['\n', '}', '\n']]

/-- The text of a file that was written line by line, where a line may end in a carriage
return and a line feed. -/
def textFile (carriageReturn : Bool) (text : Text) : Text :=
  text.flatMap fun c => if c = '\n' ∧ carriageReturn then ['\r', '\n'] else [c]

end Cpueaxh
