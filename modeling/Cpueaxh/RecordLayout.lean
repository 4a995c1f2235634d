/-
# The layout of a failure record

The members that the writer lays out, section by section, and that its text is the layout of
these members, whatever the line ends of the file are.
-/
import Cpueaxh.WrittenValues

namespace Cpueaxh

open JsonGrammar

/-! ## Lines -/

/-- The end of a line in a file. -/
def lineEnd (carriageReturn : Bool) : Text := if carriageReturn then ['\r', '\n'] else ['\n']

/-- The end of a line and the blanks in front of the next. -/
def line (carriageReturn : Bool) (width : ℕ) : Text :=
  lineEnd carriageReturn ++ List.replicate width ' '

/-- The layout of members, of which there may be none. -/
def layout (indent close : Text) : List (Text × Text) → Text
  | [] => '{' :: close ++ ['}']
  | first :: rest => layoutObject indent close first rest

/-- The layout of items, of which there may be none. -/
def layoutItems (indent close : Text) : List Text → Text
  | [] => '[' :: close ++ [']']
  | first :: rest => layoutArray indent close first rest

section Lines

variable {cr : Bool} {c : Char} {s t : Text}

theorem isBlank_lineEnd (cr : Bool) : ∀ c ∈ lineEnd cr, isBlank c = true := by
  have h : (lineEnd cr).all isBlank = true := by cases cr <;> rfl
  exact List.all_eq_true.mp h

theorem isBlank_line (cr : Bool) (width : ℕ) : ∀ c ∈ line cr width, isBlank c = true := by
  intro c hc
  rcases List.mem_append.mp hc with hc | hc
  · exact isBlank_lineEnd cr c hc
  · rw [List.eq_of_mem_replicate hc]
    rfl

theorem textFile_append (cr : Bool) (s t : Text) :
    textFile cr (s ++ t) = textFile cr s ++ textFile cr t := List.flatMap_append

theorem textFile_nil (cr : Bool) : textFile cr [] = [] := rfl

theorem textFile_cons (hc : c ≠ '\n') (cr : Bool) (s : Text) :
    textFile cr (c :: s) = c :: textFile cr s := by
  simp [textFile, hc]

/-- A text without line ends stays as it is. -/
theorem textFile_clean (h : ∀ c ∈ s, c ≠ '\n') : textFile cr s = s := by
  induction s with
  | nil => rfl
  | cons c s ih =>
    rw [textFile_cons (h c (List.mem_cons_self ..)), ih fun d hd => h d (List.mem_cons_of_mem _ hd)]

theorem textFile_spaces (cr : Bool) (width : ℕ) :
    textFile cr (List.replicate width ' ') = List.replicate width ' ' := by
  refine textFile_clean fun c hc => ?_
  rw [List.eq_of_mem_replicate hc]
  decide

theorem textFile_plain (h : ∀ c ∈ s, isPlain c = true) : textFile cr s = s := by
  refine textFile_clean fun c hc => ?_
  rintro rfl
  exact absurd (h _ hc) (by decide)

theorem textFile_key (cr : Bool) (key : String) (h : key.toList.all isPlain = true) :
    textFile cr key.toList = key.toList :=
  textFile_plain fun c hc => List.all_eq_true.mp h c hc

theorem textFile_hex64 (cr : Bool) (value : U64) : textFile cr (hex64 value) = hex64 value :=
  textFile_plain fun _ => isPlain_hex64

theorem isPlain_decimalText {n : ℕ} (hc : c ∈ decimalText n) : isPlain c = true :=
  isPlain_toDigits (by decide) hc

theorem textFile_decimalText (cr : Bool) (n : ℕ) :
    textFile cr (decimalText n) = decimalText n :=
  textFile_plain fun _ => isPlain_decimalText

theorem textFile_jsonBool (cr : Bool) (b : Bool) : textFile cr (jsonBool b) = jsonBool b := by
  cases b
  · exact textFile_key cr "false" (by decide)
  · exact textFile_key cr "true" (by decide)

/-- A string that is written has no line end: it is escaped. -/
theorem textFile_jsonEscape (cr : Bool) (value : Text) :
    textFile cr (jsonEscape value) = jsonEscape value := by
  refine textFile_clean fun c hc => ?_
  obtain ⟨d, -, hd⟩ := List.mem_flatMap.mp hc
  rintro rfl
  have hplain : ∀ e : Char, isPlain e = true → e ≠ '\n' := by
    rintro e he rfl
    exact absurd he (by decide)
  rcases jsonEscapeChar_cases d with ⟨hp, heq⟩ | ⟨e, he, -, heq⟩ | ⟨-, heq⟩
  · rw [heq, List.mem_singleton] at hd
    exact hplain d hp hd.symm
  · rw [heq] at hd
    simp only [List.mem_cons, List.not_mem_nil, or_false] at hd
    rcases hd with hd | rfl
    · exact absurd hd (by decide)
    · cases he
  · rw [heq] at hd
    simp only [List.mem_cons] at hd
    rcases hd with hd | hd | hd
    · exact absurd hd (by decide)
    · exact absurd hd (by decide)
    · exact hplain _ (isPlain_hexText hd) rfl

end Lines

/-! ## The sections -/

def gprMembers (regs : Fin 16 → U64) : List (Text × Text) :=
  (List.finRange 16).map fun index => (gprNameByIndex index.val, quoted (hex64 (regs index)))

def initialStateMembers (cr : Bool) (failure : Failure) : List (Text × Text) :=
  [("schema".toList, quoted "cpueaxh.generated-initial-state.v1".toList),
    ("gprs".toList, layout (line cr 6) (line cr 4) (gprMembers failure.initialRegs)),
    ("rip".toList, quoted (hex64 failure.initialRip)),
    ("rflags".toList, quoted (hex64 failure.initialRflags)),
    ("mxcsr".toList, quoted (hex64 (failure.initialMxcsr.setWidth 64))),
    ("xmm".toList, layoutItems (line cr 6) (line cr 4)
      ((List.finRange 16).map fun index => quoted (failure.initialXmmHex index))),
    ("data_offset".toList, decimalText failure.initialDataOffset.toNat),
    ("data_hex".toList, quoted failure.initialDataHex)]

def resultEntryMembers (cr : Bool) (regs : Fin 16 → U64) (rip rflags : U64) (mxcsr : U32)
    (dataHex : Text) : List (Text × Text) :=
  [("gprs".toList, layout (line cr 8) (line cr 6) (gprMembers regs)),
    ("rip".toList, quoted (hex64 rip)),
    ("rflags".toList, quoted (hex64 rflags)),
    ("mxcsr".toList, quoted (hex64 (mxcsr.setWidth 64))),
    ("data_hex".toList, quoted dataHex)]

def resultStateMembers (cr : Bool) (failure : Failure) : List (Text × Text) :=
  [("schema".toList, quoted "cpueaxh.generated-result-state.v1".toList),
    ("native_result".toList, layout (line cr 6) (line cr 4)
      (resultEntryMembers cr failure.nativeResultRegs failure.nativeResultRip
        failure.nativeResultRflags failure.nativeResultMxcsr failure.nativeResultDataHex)),
    ("emu_result".toList, layout (line cr 6) (line cr 4)
      (resultEntryMembers cr failure.emuResultRegs failure.emuResultRip
        failure.emuResultRflags failure.emuResultMxcsr failure.emuResultDataHex))]

def featureMembers (failure : Failure) : List (Text × Text) :=
  [("avx".toList, jsonBool failure.hostFeatureAvx),
    ("avx2".toList, jsonBool failure.hostFeatureAvx2),
    ("fma".toList, jsonBool failure.hostFeatureFma),
    ("sha".toList, jsonBool failure.hostFeatureSha),
    ("popcnt".toList, jsonBool failure.hostFeaturePopcnt),
    ("ssse3".toList, jsonBool failure.hostFeatureSsse3),
    ("sse41".toList, jsonBool failure.hostFeatureSse41),
    ("sse42".toList, jsonBool failure.hostFeatureSse42),
    ("aes".toList, jsonBool failure.hostFeatureAes),
    ("rdpid".toList, jsonBool failure.hostFeatureRdpid),
    ("bmi1".toList, jsonBool failure.hostFeatureBmi1),
    ("bmi2".toList, jsonBool failure.hostFeatureBmi2),
    ("rdseed".toList, jsonBool failure.hostFeatureRdseed),
    ("fsgsbase".toList, jsonBool failure.hostFeatureFsgsbase),
    ("serialize".toList, jsonBool failure.hostFeatureSerialize),
    ("lzcnt".toList, jsonBool failure.hostFeatureLzcnt),
    ("movbe".toList, jsonBool failure.hostFeatureMovbe)]

def hostFeaturesMembers (cr : Bool) (failure : Failure) : List (Text × Text) :=
  [("schema".toList, quoted "cpueaxh.host-features.v1".toList),
    ("vendor".toList, quoted failure.hostVendor),
    ("brand".toList, quoted failure.hostBrand),
    ("max_leaf".toList, decimalText failure.hostMaxLeaf.toNat),
    ("max_leaf7".toList, decimalText failure.hostMaxLeaf7.toNat),
    ("max_extended_leaf".toList, decimalText failure.hostMaxExtendedLeaf.toNat),
    ("family".toList, decimalText failure.hostFamily.toNat),
    ("model".toList, decimalText failure.hostModel.toNat),
    ("stepping".toList, decimalText failure.hostStepping.toNat),
    ("features".toList, layout (line cr 6) (line cr 4) (featureMembers failure))]

/-- The command that is written for a replay. -/
def replayHint (failure : Failure) : Text :=
  stream ["test.exe --case ".toList, failure.specName, " --seed-index ".toList,
    decimalText failure.seedIndex.toNat]

/-- The members behind the first, for a failure with a spec name and a seed index. -/
def recordMembers (cr : Bool) (failure : Failure) : List (Text × Text) :=
  [("case_name".toList, quoted failure.caseName), ("detail".toList, quoted failure.detail),
    ("spec_name".toList, quoted failure.specName),
    ("seed_index".toList, decimalText failure.seedIndex.toNat)] ++
  (if failure.hasSeed then [("seed".toList, quoted (decimalText failure.seed.toNat))] else []) ++
  (if failure.imageHex ≠ [] then [("image_hex".toList, quoted failure.imageHex)] else []) ++
  (if failure.hasInitialState then
    [("initial_state".toList, layout (line cr 4) (line cr 2) (initialStateMembers cr failure))]
  else []) ++
  (if failure.hasResultState then
    [("result_state".toList, layout (line cr 4) (line cr 2) (resultStateMembers cr failure))]
  else []) ++
  (if failure.hasHostFeatures then
    [("host_features".toList, layout (line cr 4) (line cr 2) (hostFeaturesMembers cr failure))]
  else []) ++
  [("case_selector".toList, quoted failure.specName),
    ("replay_hint".toList, quoted (replayHint failure))]

/-! ## The text is the layout -/

section Layouts

variable {cr : Bool} {failure : Failure}

theorem textFile_stream (cr : Bool) (pieces : List Text) :
    textFile cr (stream pieces) = (pieces.map (textFile cr)).flatten := by
  induction pieces with
  | nil => rfl
  | cons piece pieces ih =>
    rw [stream, List.flatten_cons, textFile_append, List.map_cons, List.flatten_cons, ← ih, stream]

theorem textFile_fieldName (cr : Bool) (width : ℕ) (key : String)
    (h : key.toList.all isPlain = true) :
    textFile cr (fieldName width key) = fieldName width key := by
  have hkey := textFile_key cr key h
  simp (disch := decide) only [fieldName, textFile_append, textFile_cons, textFile_nil,
    textFile_spaces, hkey]

theorem textFile_stringField {value : Text} (hvalue : textFile cr value = value) (width : ℕ)
    (key : String) (h : key.toList.all isPlain = true) :
    textFile cr (stringField width key value) = stringField width key value := by
  rw [stringField, textFile_append, textFile_append, textFile_fieldName cr width key h,
    textFile_cons (by decide), hvalue]
  rfl

theorem textFile_stringHex64 (width : ℕ) (key : String) (value : U64)
    (h : key.toList.all isPlain = true) :
    textFile cr (stringField width key (hex64 value)) = stringField width key (hex64 value) :=
  textFile_stringField (textFile_hex64 cr value) width key h

theorem textFile_stringEscaped (width : ℕ) (key : String) (value : Text)
    (h : key.toList.all isPlain = true) :
    textFile cr (stringField width key (jsonEscape value)) =
      stringField width key (jsonEscape value) :=
  textFile_stringField (textFile_jsonEscape cr value) width key h

theorem textFile_stringKey (width : ℕ) (key value : String) (h : key.toList.all isPlain = true)
    (hvalue : value.toList.all isPlain = true) :
    textFile cr (stringField width key value.toList) = stringField width key value.toList :=
  textFile_stringField (textFile_key cr value hvalue) width key h

/-- A member whose value is written in quotes, behind its line end. -/
theorem layoutMember_quoted (cr : Bool) (width : ℕ) (key : String) (value : Text) :
    layoutMember (line cr width) (key.toList, quoted value) =
      lineEnd cr ++ stringField width key (jsonEscape value) := by
  simp only [layoutMember, line, stringField, fieldName, quoted, List.append_assoc,
    List.cons_append]

theorem layoutMember_field (cr : Bool) (width : ℕ) (key : String) (value : Text) :
    layoutMember (line cr width) (key.toList, value) =
      lineEnd cr ++ (fieldName width key ++ value) := by
  simp only [layoutMember, line, fieldName, List.append_assoc, List.cons_append]

theorem line_append (cr : Bool) (width : ℕ) (s : Text) :
    line cr width ++ s = lineEnd cr ++ (List.replicate width ' ' ++ s) := List.append_assoc ..

theorem textFile_comma (cr : Bool) : textFile cr [',', '\n'] = ',' :: lineEnd cr := by
  cases cr <;> rfl

theorem textFile_brace (cr : Bool) : textFile cr ['{', '\n'] = '{' :: lineEnd cr := by
  cases cr <;> rfl

theorem textFile_closed (cr : Bool) : textFile cr ['}', ',', '\n'] = '}' :: ',' :: lineEnd cr := by
  cases cr <;> rfl

theorem textFile_closedArray (cr : Bool) :
    textFile cr [']', ',', '\n'] = ']' :: ',' :: lineEnd cr := by
  cases cr <;> rfl

theorem textFile_closedLine (cr : Bool) : textFile cr ['}', '\n'] = '}' :: lineEnd cr := by
  cases cr <;> rfl

theorem textFile_newline (cr : Bool) : textFile cr ['\n'] = lineEnd cr := by
  cases cr <;> rfl

theorem textFile_sign (cr : Bool) (c : Char) (hc : c ≠ '\n') : textFile cr [c] = [c] :=
  textFile_cons hc cr []

theorem jsonEscape_hex64 (value : U64) : jsonEscape (hex64 value) = hex64 value :=
  jsonEscape_plain fun _ => isPlain_hex64

theorem jsonEscape_decimalText (n : ℕ) : jsonEscape (decimalText n) = decimalText n :=
  jsonEscape_plain fun _ => isPlain_decimalText

theorem jsonEscape_key (key : String) (h : key.toList.all isPlain = true) :
    jsonEscape key.toList = key.toList :=
  jsonEscape_plain fun c hc => List.all_eq_true.mp h c hc

/-- A list that puts its comma in front of every text but the first. -/
theorem flatten_finRange {n : ℕ} (text : Fin (n + 1) → Text) :
    ((List.finRange (n + 1)).map fun index =>
        (if index ≠ 0 then [','] else []) ++ text index).flatten =
      text 0 ++ layoutRest ((List.finRange n).map fun index => text index.succ) := by
  rw [List.finRange_succ, List.map_cons, List.flatten_cons, List.map_map, layoutRest,
    List.flatMap_map]
  simp [Fin.succ_ne_zero, List.flatMap, Function.comp_def]

theorem textFile_ifComma (cr : Bool) (p : Prop) [Decidable p] :
    textFile cr (if p then [','] else []) = if p then [','] else [] := by
  split <;> rfl

theorem isPlain_gprName (index : Fin 16) : ∀ c ∈ gprNameByIndex index.val, isPlain c = true := by
  have h : ∀ index : Fin 16, (gprNameByIndex index.val).all isPlain = true := by decide
  exact List.all_eq_true.mp (h index)

theorem layout_gprMembers (cr : Bool) (width : ℕ) (close : Text) (regs : Fin 16 → U64) :
    layout (line cr width) close (gprMembers regs) =
      '{' :: textFile cr (writeGprs width regs) ++ close ++ ['}'] := by
  have hgprs : gprMembers regs = (gprNameByIndex 0, quoted (hex64 (regs 0))) ::
      (List.finRange 15).map fun index : Fin 15 =>
        (gprNameByIndex index.succ.val, quoted (hex64 (regs index.succ))) := by
    rw [gprMembers, List.finRange_succ, List.map_cons, List.map_map]
    rfl
  have htext : textFile cr (writeGprs width regs) =
      ((List.finRange 16).map fun index : Fin 16 => (if index ≠ 0 then [','] else []) ++
        layoutMember (line cr width) (gprNameByIndex index.val, quoted (hex64 (regs index)))).flatten := by
    rw [writeGprs, textFile_stream, List.map_map]
    refine congrArg (fun text => ((List.finRange 16).map text).flatten) (funext fun index => ?_)
    have hname := @textFile_plain cr _ (isPlain_gprName index)
    simp (disch := decide) only [Function.comp_apply, textFile_stream, List.map_cons,
      List.map_nil, List.flatten_cons, List.flatten_nil, textFile_ifComma, textFile_newline,
      textFile_cons, textFile_nil, textFile_spaces, textFile_hex64, hname, layoutMember, quoted,
      jsonEscape_hex64, line, List.cons_append, List.append_assoc, List.nil_append]
  rw [htext, flatten_finRange, hgprs]
  simp only [layout, layoutObject, List.map_map, List.cons_append, List.append_assoc]
  rfl

theorem layout_xmm (cr : Bool) (close : Text) (initialXmmHex : Fin 16 → Text) :
    layoutItems (line cr 6) close
        ((List.finRange 16).map fun index => quoted (initialXmmHex index)) =
      '[' :: textFile cr (writeXmm initialXmmHex) ++ close ++ [']'] := by
  have hitems : ((List.finRange 16).map fun index => quoted (initialXmmHex index)) =
      quoted (initialXmmHex 0) :: (List.finRange 15).map fun index : Fin 15 =>
        quoted (initialXmmHex index.succ) := by
    rw [List.finRange_succ, List.map_cons, List.map_map]
    rfl
  have htext : textFile cr (writeXmm initialXmmHex) =
      ((List.finRange 16).map fun index : Fin 16 => (if index ≠ 0 then [','] else []) ++
        (line cr 6 ++ quoted (initialXmmHex index))).flatten := by
    rw [writeXmm, textFile_stream, List.map_map]
    refine congrArg (fun text => ((List.finRange 16).map text).flatten) (funext fun index => ?_)
    simp (disch := decide) only [Function.comp_apply, textFile_stream, List.map_cons,
      List.map_nil, List.flatten_cons, List.flatten_nil, textFile_ifComma, textFile_newline,
      textFile_sign, textFile_spaces, textFile_jsonEscape, quoted, line, List.cons_append,
      List.append_assoc, List.nil_append]
  rw [htext, flatten_finRange, hitems]
  simp only [layoutItems, layoutArray, List.map_map, List.cons_append, List.append_assoc]
  rfl

theorem layout_cons (indent close : Text) (first : Text × Text) (rest : List (Text × Text)) :
    layout indent close (first :: rest) = layoutObject indent close first rest := rfl

/-- The result that is written is the layout of its fields. -/
theorem layout_resultEntry (cr : Bool) (regs : Fin 16 → U64) (rip rflags : U64) (mxcsr : U32)
    (dataHex : Text) :
    layout (line cr 6) (line cr 4) (resultEntryMembers cr regs rip rflags mxcsr dataHex) =
      '{' :: lineEnd cr ++ textFile cr (writeResultEntry regs rip rflags mxcsr dataHex) ++
        List.replicate 4 ' ' ++ ['}'] := by
  rw [resultEntryMembers, layout_gprMembers]
  simp (disch := decide) only
    [layout_cons, layoutObject, layoutRest, ↓layoutMember_quoted, layoutMember_field,
    jsonEscape_hex64, writeResultEntry, textFile_stream, textFile_comma, textFile_closed,
    textFile_newline, textFile_sign, textFile_spaces, textFile_fieldName, textFile_stringHex64, textFile_stringEscaped, List.map_cons, List.map_nil, List.flatten_cons, List.flatten_nil, List.flatMap_cons,
    List.flatMap_nil, List.cons_append, List.append_assoc, List.nil_append, List.append_nil,
    line_append]

theorem textFile_initialState (cr : Bool) (failure : Failure) :
    textFile cr (writeInitialState failure) =
      ',' :: layoutMember (line cr 2) ("initial_state".toList,
        layout (line cr 4) (line cr 2) (initialStateMembers cr failure)) := by
  rw [initialStateMembers, layout_gprMembers, layout_xmm]
  simp (disch := decide) only
    [layout_cons, layoutObject, layoutRest, ↓layoutMember_quoted, layoutMember_field,
    jsonEscape_hex64, jsonEscape_key, writeInitialState, textFile_stream, textFile_comma,
    textFile_brace, textFile_closed, textFile_closedArray, textFile_newline, textFile_sign,
    textFile_spaces, textFile_fieldName, textFile_stringHex64, textFile_stringEscaped, textFile_stringKey, textFile_decimalText,
    List.map_cons, List.map_nil, List.flatten_cons, List.flatten_nil, List.flatMap_cons,
    List.flatMap_nil, List.cons_append, List.append_assoc, List.nil_append, List.append_nil,
    line_append]

theorem textFile_resultState (cr : Bool) (failure : Failure) :
    textFile cr (writeResultState failure) =
      ',' :: layoutMember (line cr 2) ("result_state".toList,
        layout (line cr 4) (line cr 2) (resultStateMembers cr failure)) := by
  rw [resultStateMembers, layout_resultEntry, layout_resultEntry]
  simp (disch := decide) only
    [layout_cons, layoutObject, layoutRest, ↓layoutMember_quoted, layoutMember_field,
    jsonEscape_key, writeResultState, textFile_stream, textFile_comma, textFile_brace,
    textFile_closed, textFile_closedLine, textFile_sign, textFile_spaces, textFile_fieldName,
    textFile_stringKey, List.map_cons, List.map_nil, List.flatten_cons, List.flatten_nil,
    List.flatMap_cons, List.flatMap_nil, List.cons_append, List.append_assoc, List.nil_append,
    List.append_nil, line_append]

theorem textFile_features (cr : Bool) (failure : Failure) :
    textFile cr (writeFeatures failure) =
      fieldName 4 "features" ++ layout (line cr 6) (line cr 4) (featureMembers failure) ++
        lineEnd cr := by
  simp (disch := decide) only [featureMembers, layout_cons, layoutObject, layoutRest,
    layoutMember_field, writeFeatures, textFile_stream, textFile_comma, textFile_brace,
    textFile_closedLine, textFile_newline, textFile_spaces, textFile_fieldName,
    textFile_jsonBool, List.map_cons, List.map_nil, List.flatten_cons, List.flatten_nil,
    List.flatMap_cons, List.flatMap_nil, List.cons_append, List.append_assoc, List.nil_append,
    List.append_nil, line_append]

theorem textFile_hostFeatures (cr : Bool) (failure : Failure) :
    textFile cr (writeHostFeatures failure) =
      ',' :: layoutMember (line cr 2) ("host_features".toList,
        layout (line cr 4) (line cr 2) (hostFeaturesMembers cr failure)) := by
  have hfeatures := textFile_features cr failure
  generalize hlayout : layout (line cr 6) (line cr 4) (featureMembers failure) = features
    at hfeatures
  rw [hostFeaturesMembers, hlayout]
  simp (disch := decide) only
    [layout_cons, layoutObject, layoutRest, ↓layoutMember_quoted, layoutMember_field,
    jsonEscape_key, writeHostFeatures, hfeatures, textFile_stream, textFile_comma, textFile_brace,
    textFile_sign, textFile_spaces, textFile_fieldName, textFile_stringEscaped, textFile_stringKey,
    textFile_decimalText, List.map_cons, List.map_nil, List.flatten_cons, List.flatten_nil,
    List.flatMap_cons, List.flatMap_nil, List.cons_append, List.append_assoc, List.append_nil, line_append]

theorem layoutRest_nil : layoutRest [] = [] := rfl

theorem layoutRest_append (texts texts' : List Text) :
    layoutRest (texts ++ texts') = layoutRest texts ++ layoutRest texts' := List.flatMap_append

theorem layoutRest_if (p : Prop) [Decidable p] (indent : Text) (member : Text × Text) :
    layoutRest ((if p then [member] else []).map (layoutMember indent)) =
      if p then ',' :: layoutMember indent member else [] := by
  split
  · rw [List.map_cons, List.map_nil, layoutRest_cons]
    exact List.append_nil _
  · rfl

theorem textFile_if (cr : Bool) (p : Prop) [Decidable p] (text : Text) :
    textFile cr (if p then text else []) = if p then textFile cr text else [] := by
  split <;> rfl

theorem jsonEscape_stream (pieces : List Text) :
    jsonEscape (stream pieces) = stream (pieces.map jsonEscape) := by
  induction pieces with
  | nil => rfl
  | cons piece pieces ih =>
    rw [stream, List.flatten_cons, jsonEscape_append, List.map_cons, stream, List.flatten_cons]
    exact congrArg _ ih

/-- The replay command has no line end of its own. -/
theorem textFile_replayHint (cr : Bool) (failure : Failure) :
    textFile cr (stringField 2 "replay_hint"
        (stream ["test.exe --case ".toList, jsonEscape failure.specName,
          " --seed-index ".toList, decimalText failure.seedIndex.toNat])) =
      stringField 2 "replay_hint" (jsonEscape (replayHint failure)) := by
  have hhint : jsonEscape (replayHint failure) =
      stream ["test.exe --case ".toList, jsonEscape failure.specName,
        " --seed-index ".toList, decimalText failure.seedIndex.toNat] := by
    have hcase := jsonEscape_key "test.exe --case " (by decide)
    have hoption := jsonEscape_key " --seed-index " (by decide)
    rw [replayHint, jsonEscape_stream]
    simp only [List.map_cons, List.map_nil, hcase, hoption, jsonEscape_decimalText]
  rw [← hhint]
  exact textFile_stringEscaped 2 "replay_hint" _ (by decide)

/-- **The file of a failure record** is the layout of its members. -/
theorem textFile_failureRecord (cr : Bool) (hspec : failure.specName ≠ [])
    (hindex : failure.hasSeedIndex = true) :
    textFile cr (writeFailureRecord failure) =
      layoutObject (line cr 2) (lineEnd cr)
        ("schema".toList, quoted "cpueaxh.failure.v1".toList) (recordMembers cr failure) ++
      lineEnd cr := by
  have hboth : failure.specName ≠ [] ∧ failure.hasSeedIndex = true := ⟨hspec, hindex⟩
  have hseed : textFile cr (stringField 2 "seed" (decimalText failure.seed.toNat)) =
      stringField 2 "seed" (decimalText failure.seed.toNat) :=
    textFile_stringField (textFile_decimalText cr _) 2 "seed" (by decide)
  have hend : textFile cr ['\n', '}', '\n'] = lineEnd cr ++ '}' :: lineEnd cr := by
    cases cr <;> rfl
  rw [writeFailureRecord, if_pos hspec, if_pos hindex, if_pos hboth]
  simp (disch := decide) only [recordMembers, layoutObject, layoutRest_append, layoutRest_if,
    layoutRest_cons, layoutRest_nil, ↓layoutMember_quoted, layoutMember_field, jsonEscape_key,
    jsonEscape_decimalText, textFile_stream, textFile_if, textFile_comma, textFile_brace,
    textFile_fieldName, textFile_stringEscaped, textFile_stringKey, textFile_decimalText,
    textFile_initialState, textFile_resultState, textFile_hostFeatures, textFile_replayHint,
    hseed, hend, List.map_append, List.map_cons, List.map_nil, List.flatten_cons,
    List.flatten_nil, List.cons_append, List.append_assoc, List.nil_append, List.append_nil]

end Layouts

end Cpueaxh
