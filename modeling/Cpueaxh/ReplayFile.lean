/-
# Replay files

How the test program takes a replay file: the record is read by the strict reader, the
diagnostic sections in it are validated, and the options are set to the case that the record
selects.  An error is the text that the program reports.
-/
import Cpueaxh.StrictJson

namespace Cpueaxh

open JsonGrammar (Text)

/-! ## The values of a record -/

/-- A string that is there and not empty. -/
def StrictJsonObject.requiredString (object : StrictJsonObject) (key : Text) : Option Text :=
  (object.stringValues key).filter fun value => !value.isEmpty

def StrictJsonObject.requiredU64 (object : StrictJsonObject) (key : Text) : Option U64 :=
  object.u64Values key

def StrictJsonObject.rawValue (object : StrictJsonObject) (key : Text) : Option Text :=
  object.rawValues key

def jsonGprFieldNames : List Text :=
  ["rax".toList, "rcx".toList, "rdx".toList, "rbx".toList, "rsp".toList, "rbp".toList,
    "rsi".toList, "rdi".toList, "r8".toList, "r9".toList, "r10".toList, "r11".toList,
    "r12".toList, "r13".toList, "r14".toList, "r15".toList]

def jsonHostFeatureFieldNames : List Text :=
  ["avx".toList, "avx2".toList, "fma".toList, "sha".toList, "popcnt".toList, "ssse3".toList,
    "sse41".toList, "sse42".toList, "aes".toList, "rdpid".toList, "bmi1".toList, "bmi2".toList,
    "rdseed".toList, "fsgsbase".toList, "serialize".toList, "lzcnt".toList, "movbe".toList]

def jsonRequiredStringFields (object : StrictJsonObject) (keys : List Text) (label : String) :
    Except String Unit :=
  match keys.find? fun key => (object.requiredString key).isNone with
  | some key =>
    .error (label ++ " field must be a non-empty JSON string: " ++ String.ofList key)
  | none => .ok ()

def jsonRequiredU64Fields (object : StrictJsonObject) (keys : List Text) (label : String) :
    Except String Unit :=
  match keys.find? fun key => (object.requiredU64 key).isNone with
  | some key => .error (label ++ " field must be an unsigned JSON number: " ++ String.ofList key)
  | none => .ok ()

def jsonRequiredSchema (object : StrictJsonObject) (expectedSchema : Text) (label : String) :
    Except String Unit :=
  match object.requiredString "schema".toList with
  | none => .error (label ++ " has no non-empty schema")
  | some schema =>
    if schema = expectedSchema then .ok ()
    else .error (label ++ " has unexpected schema: " ++ String.ofList schema)

/-! ## The diagnostic sections -/

/-- A record of exactly the given keys, an error being reported under the label. -/
def jsonParseSection (rawValue : Text) (keys : List Text) (label : String) :
    Except String StrictJsonObject :=
  (jsonParseTopLevelObject rawValue keys [] false).mapError fun error =>
    label ++ " schema validation failed: " ++ error

def jsonValidateArrayValue (rawValue : Text) (label : String) : Except String Unit :=
  match jsonSkipWs rawValue with
  | '[' :: json =>
    match jsonSkipValueStrict ('[' :: json) with
    | .error error => .error (label ++ " array schema validation failed: " ++ error)
    | .ok json =>
      match jsonSkipWs json with
      | [] => .ok ()
      | _ => .error (label ++ " array has trailing data")
  | _ => .error (label ++ " must be a JSON array")

def jsonValidateGprObjectValue (rawValue : Text) (label : String) : Except String Unit := do
  let gprs ← jsonParseSection rawValue jsonGprFieldNames (label ++ " gprs")
  jsonRequiredStringFields gprs jsonGprFieldNames (label ++ " gprs")

/-- A section under a key, which has to be there; no error is set when it is not. -/
def jsonValidateField (object : StrictJsonObject) (key : Text)
    (validate : Text → Except String Unit) : Except String Unit :=
  match object.rawValue key with
  | none => .error ""
  | some rawValue => validate rawValue

def jsonValidateGeneratedInitialState (rawValue : Text) : Except String Unit := do
  let object ← jsonParseSection rawValue
    ["schema".toList, "gprs".toList, "rip".toList, "rflags".toList, "mxcsr".toList, "xmm".toList,
      "data_offset".toList, "data_hex".toList] "initial_state"
  jsonRequiredSchema object "cpueaxh.generated-initial-state.v1".toList "initial_state"
  jsonRequiredStringFields object
    ["rip".toList, "rflags".toList, "mxcsr".toList, "data_hex".toList] "initial_state"
  jsonRequiredU64Fields object ["data_offset".toList] "initial_state"
  jsonValidateField object "gprs".toList fun gprs =>
    jsonValidateGprObjectValue gprs "initial_state"
  jsonValidateField object "xmm".toList fun xmm =>
    jsonValidateArrayValue xmm "initial_state.xmm"

def jsonValidateGeneratedResultEntry (rawValue : Text) (label : String) : Except String Unit := do
  let object ← jsonParseSection rawValue
    ["gprs".toList, "rip".toList, "rflags".toList, "mxcsr".toList, "data_hex".toList] label
  jsonRequiredStringFields object
    ["rip".toList, "rflags".toList, "mxcsr".toList, "data_hex".toList] label
  jsonValidateField object "gprs".toList fun gprs => jsonValidateGprObjectValue gprs label

def jsonValidateGeneratedResultState (rawValue : Text) : Except String Unit := do
  let object ← jsonParseSection rawValue
    ["schema".toList, "native_result".toList, "emu_result".toList] "result_state"
  jsonRequiredSchema object "cpueaxh.generated-result-state.v1".toList "result_state"
  jsonValidateField object "native_result".toList fun nativeResult =>
    jsonValidateGeneratedResultEntry nativeResult "result_state.native_result"
  jsonValidateField object "emu_result".toList fun emuResult =>
    jsonValidateGeneratedResultEntry emuResult "result_state.emu_result"

/-- The test of a feature: a JSON boolean. -/
def jsonIsBool (features : StrictJsonObject) (key : Text) : Bool :=
  features.rawValue key = some "true".toList || features.rawValue key = some "false".toList

def jsonValidateFeatures (featuresRaw : Text) : Except String Unit := do
  let features ← jsonParseSection featuresRaw jsonHostFeatureFieldNames "host_features.features"
  match jsonHostFeatureFieldNames.find? fun key => !jsonIsBool features key with
  | some key =>
    .error ("host_features.features field must be a JSON boolean: " ++ String.ofList key)
  | none => .ok ()

def jsonValidateHostFeaturesValue (rawValue : Text) : Except String Unit := do
  let object ← jsonParseSection rawValue
    ["schema".toList, "vendor".toList, "brand".toList, "max_leaf".toList, "max_leaf7".toList,
      "max_extended_leaf".toList, "family".toList, "model".toList, "stepping".toList,
      "features".toList] "host_features"
  jsonRequiredSchema object "cpueaxh.host-features.v1".toList "host_features"
  jsonRequiredStringFields object ["vendor".toList, "brand".toList] "host_features"
  jsonRequiredU64Fields object
    ["max_leaf".toList, "max_leaf7".toList, "max_extended_leaf".toList, "family".toList,
      "model".toList, "stepping".toList] "host_features"
  match object.rawValue "features".toList with
  | none => .error "host_features has no features object"
  | some featuresRaw => jsonValidateFeatures featuresRaw

/-- A section that may be absent. -/
def jsonValidateOptional (object : StrictJsonObject) (key : Text)
    (validate : Text → Except String Unit) : Except String Unit :=
  match object.rawValue key with
  | none => .ok ()
  | some rawValue => validate rawValue

def jsonValidateGeneratedReplayDiagnostics (object : StrictJsonObject) : Except String Unit := do
  jsonRequiredStringFields object ["schema".toList, "case_selector".toList] "generated replay"
  jsonRequiredU64Fields object ["seed_index".toList] "generated replay"
  match ["case_name".toList, "detail".toList, "spec_name".toList, "image_hex".toList,
      "replay_hint".toList].find? fun key =>
        (object.rawValue key).isSome && (object.requiredString key).isNone with
  | some key =>
    .error ("generated replay diagnostic field must be a JSON string: " ++ String.ofList key)
  | none => .ok ()
  if (object.rawValue "seed".toList).isSome && (object.stringValues "seed".toList).isNone &&
      (object.u64Values "seed".toList).isNone then
    .error
      "generated replay diagnostic field must be a string or unsigned number: seed"
  else .ok ()
  jsonValidateOptional object "initial_state".toList jsonValidateGeneratedInitialState
  jsonValidateOptional object "result_state".toList jsonValidateGeneratedResultState
  jsonValidateOptional object "host_features".toList jsonValidateHostFeaturesValue

/-! ## The manual index -/

structure ManualCaseIndexEntry where
  name : Text
  category : Text
  coverage : Text

def manualCaseIndex : List ManualCaseIndexEntry :=
  [⟨"compat32_control_transfer".toList, "manual".toList,
      "near/far ret and cross-mode control-transfer edge cases".toList⟩,
    ⟨"exception_priority".toList, "manual".toList,
      "memory, stack, canonical-address, and UD exception ordering".toList⟩,
    ⟨"invalid_prefix_ud".toList, "manual".toList, "LOCK/VEX/EVEX invalid encoding cases".toList⟩,
    ⟨"x87_state".toList, "manual".toList,
      "x87 control/status/env and wait/no-wait behavior".toList⟩,
    ⟨"host_stack_roundtrip".toList, "manual".toList,
      "host-mode stack and return-slot behavior".toList⟩,
    ⟨"cached_rmw_recompute".toList, "manual".toList,
      "cached decoded RMW recomputation for xchg/xadd/cmpxchg".toList⟩,
    ⟨"context_api".toList, "manual".toList,
      "public context read/write register-file coupling".toList⟩,
    ⟨"simd_encoding_edges".toList, "manual".toList,
      "selected SSE/AVX/EVEX prefix and register-extension edge cases".toList⟩,
    ⟨"port_io_escape".toList, "unsafe-native".toList,
      "I/O instructions are escape/model tested rather than native user-mode executed".toList⟩,
    ⟨"privileged_system".toList, "unsafe-native".toList,
      "privileged/MSR/VMX/SVM/system semantics require model or controlled-runner tests".toList⟩]

def findManualCaseIndexEntry (name : Text) : Option ManualCaseIndexEntry :=
  manualCaseIndex.find? fun entry => entry.name = name

/-- What is left behind the first place where `option` stands. -/
def findOption (option : Text) : Text → Option Text
  | [] => none
  | c :: text =>
    if option.isPrefixOf (c :: text) then some ((c :: text).drop option.length)
    else findOption option text

def manualReplayHintMatchesCase (replayHint manualCase : Text) : Bool :=
  match findOption "--manual-case".toList replayHint with
  | some (' ' :: rest) =>
    match rest.dropWhile (· = ' ') with
    | [] => false
    | replayCase => replayCase.takeWhile (· ≠ ' ') = manualCase
  | _ => false

/-! ## The selection -/

/-- The options that a replay sets. -/
structure TestOptions where
  runManual : Bool
  hasSeedIndex : Bool
  seedIndex : U64
  filter : Text
  exactCase : Text
  manualCase : Text
  runRegressionCorpus : Bool

/-- The branch of `apply_replay_file` for the records of the manual index. -/
def applyManualReplay (path : String) (json : Text) (options : TestOptions) :
    Except String TestOptions := do
  let object ← (jsonParseTopLevelObject json
    ["schema".toList, "case_selector".toList, "category".toList, "coverage".toList,
      "replay".toList] [] false).mapError fun error =>
        "manual replay JSON schema validation failed: " ++ error
  let some manualCase := object.requiredString "case_selector".toList
    | .error ("manual replay file has no non-empty case_selector: " ++ path)
  let some entry := findManualCaseIndexEntry manualCase
    | .error ("manual replay case is not in the manual index: " ++ String.ofList manualCase)
  let some category := object.requiredString "category".toList
    | .error ("manual replay file has no non-empty category: " ++ path)
  if category ≠ "manual".toList ∧ category ≠ "unsafe-native".toList then
    .error ("manual replay file has unsupported category: " ++ String.ofList category)
  else if category ≠ entry.category then
    .error ("manual replay category does not match manual index: " ++ String.ofList manualCase)
  else do
    let some coverage := object.requiredString "coverage".toList
      | .error ("manual replay file has no non-empty coverage: " ++ path)
    if coverage ≠ entry.coverage then
      .error ("manual replay coverage does not match manual index: " ++ String.ofList manualCase)
    else do
      let some replayHint := object.requiredString "replay".toList
        | .error ("manual replay file has no non-empty replay command: " ++ path)
      if !manualReplayHintMatchesCase replayHint manualCase then
        .error ("manual replay command does not match case_selector: " ++
          String.ofList manualCase)
      else
        .ok
          { options with
            manualCase := manualCase
            filter := []
            exactCase := []
            hasSeedIndex := false
            runManual := true
            runRegressionCorpus := false }

/-- The branch of `apply_replay_file` for the records of generated cases. -/
def applyGeneratedReplay (path : String) (json : Text) (options : TestOptions) :
    Except String TestOptions := do
  let object ← (jsonParseTopLevelObject json
    ["schema".toList, "case_selector".toList, "seed_index".toList]
    ["case_name".toList, "detail".toList, "spec_name".toList, "seed".toList, "image_hex".toList,
      "replay_hint".toList, "initial_state".toList, "result_state".toList,
      "host_features".toList] false).mapError fun error =>
        "generated replay JSON schema validation failed: " ++ error
  (jsonValidateGeneratedReplayDiagnostics object).mapError fun error =>
    "generated replay diagnostic schema validation failed: " ++ error
  let some exactCase := object.requiredString "case_selector".toList
    | .error ("replay file has no non-empty case_selector: " ++ path)
  let some seedIndex := object.requiredU64 "seed_index".toList
    | .error ("replay file has no numeric seed_index: " ++ path)
  .ok
    { options with
      exactCase := exactCase
      filter := []
      manualCase := []
      seedIndex := seedIndex
      hasSeedIndex := true
      runManual := false
      runRegressionCorpus := false }

/-- A replay file of a path, with its text when it can be read. -/
def applyReplayFile (path : String) (file : Option Text) (options : TestOptions) :
    Except String TestOptions := do
  let some json := file | .error ("failed to read replay file: " ++ path)
  let schemaObject ← (jsonParseTopLevelObject json ["schema".toList] [] true).mapError fun error =>
    "replay JSON schema validation failed: " ++ error
  let some schema := schemaObject.requiredString "schema".toList
    | .error ("replay file has no non-empty schema: " ++ path)
  if schema = "cpueaxh.manual-index.v1".toList then applyManualReplay path json options
  else if schema ≠ "cpueaxh.failure.v1".toList then
    .error ("replay file has unsupported schema: " ++ path)
  else applyGeneratedReplay path json options

end Cpueaxh
