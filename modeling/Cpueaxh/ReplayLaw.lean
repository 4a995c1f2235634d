/-
# Failure records that replay

A failure record is written so that its case can be run again.  The reader takes the record
when each string in it is one that the reader can read back, and when no diagnostic string in
it is empty; on any other record the replay ends with an error, although the case that it
selects is there.
-/
import Cpueaxh.SectionReads

namespace Cpueaxh

open JsonGrammar

/-! ## The members of a record -/

/-- The members of a record, from its schema on. -/
def failureMembers (cr : Bool) (failure : Failure) : List (Text × Text) :=
  ("schema".toList, quoted "cpueaxh.failure.v1".toList) :: recordMembers cr failure

/-- The keys that a record can have, as they are written. -/
def failureKeys : List Text :=
  ["schema".toList, "case_name".toList, "detail".toList, "spec_name".toList, "seed_index".toList,
    "seed".toList, "image_hex".toList, "initial_state".toList, "result_state".toList,
    "host_features".toList, "case_selector".toList, "replay_hint".toList]

section Members

variable {α : Type} {p : Prop} [Decidable p] {a b : α}

theorem mem_ite_singleton : a ∈ (if p then [b] else []) ↔ p ∧ a = b := by
  split <;> simp [*]

theorem forall_mem_ite_singleton {P : α → Prop} :
    (∀ a ∈ (if p then [b] else []), P a) ↔ (p → P b) := by
  split <;> simp [*]

theorem ite_singleton_sublist : (if p then [b] else []).Sublist [b] := by
  split
  · exact .refl _
  · exact List.nil_sublist _

end Members

section Records

variable (cr : Bool) (failure : Failure)

/-- The keys of a record are some of all its keys, in their order. -/
theorem keysOf_failureMembers_sublist : (keysOf (failureMembers cr failure)).Sublist failureKeys := by
  have hall : (failureMembers cr failure).Sublist
      (("schema".toList, quoted "cpueaxh.failure.v1".toList) ::
        ([("case_name".toList, quoted failure.caseName), ("detail".toList, quoted failure.detail),
          ("spec_name".toList, quoted failure.specName),
          ("seed_index".toList, decimalText failure.seedIndex.toNat)] ++ [_] ++ [_] ++ [_] ++ [_] ++
          [_] ++ [("case_selector".toList, quoted failure.specName),
            ("replay_hint".toList, quoted (replayHint failure))])) :=
    .cons_cons _ ((((((List.Sublist.refl _).append ite_singleton_sublist).append
      ite_singleton_sublist).append ite_singleton_sublist).append ite_singleton_sublist).append
      ite_singleton_sublist |>.append (.refl _))
  exact hall.map Prod.fst

theorem written_layoutState {members : List (Text × Text)} (h : LaidOut members)
    (hne : members ≠ []) : WrittenValue (layout (line cr 4) (line cr 2) members) :=
  written_layout h hne (isBlank_line cr 4) (isBlank_line cr 2)

theorem readable_layoutState {members : List (Text × Text)} (h : LaidOut members)
    (hne : members ≠ []) :
    Readable (layout (line cr 4) (line cr 2) members) ↔ ∀ m ∈ members, Readable m.2 :=
  readable_layout_iff h hne (isBlank_line cr 4) (isBlank_line cr 2)

theorem laidOut_failureMembers : LaidOut (failureMembers cr failure) := by
  have hkeys := keysOf_failureMembers_sublist cr failure
  refine laidOut_of_keys rfl ?_ (hkeys.nodup (by decide +kernel)) ?_
  · exact List.all_eq_true.mpr fun key hkey =>
      List.all_eq_true.mp (show failureKeys.all (·.all isPlain) = true by decide) key
        (hkeys.subset hkey)
  · have hindex := (readable_decimalText failure.seedIndex.toNat).written
    have hinitial := written_layoutState cr (laidOut_initialStateMembers cr failure)
      (by simp [initialStateMembers])
    have hresult := written_layoutState cr (laidOut_resultStateMembers cr failure)
      (by simp [resultStateMembers])
    have hhost := written_layoutState cr (laidOut_hostFeaturesMembers cr failure)
      (by simp [hostFeaturesMembers])
    simp only [failureMembers, recordMembers, List.forall_mem_cons, List.forall_mem_append,
      forall_mem_ite_singleton, written_quoted, hindex, hinitial, hresult, hhost]
    simp

theorem writable_replayHint (h : Writable failure.specName) : Writable (replayHint failure) := by
  have hcase : Writable "test.exe --case ".toList := writable_of_all (by decide)
  have hoption : Writable " --seed-index ".toList := writable_of_all (by decide)
  have hindex := writable_decimalText failure.seedIndex.toNat
  intro c hc
  obtain ⟨piece, hpiece, hc⟩ := List.mem_flatten.mp hc
  simp only [List.mem_cons, List.not_mem_nil, or_false] at hpiece
  rcases hpiece with rfl | rfl | rfl | rfl
  · exact hcase c hc
  · exact h c hc
  · exact hoption c hc
  · exact hindex c hc

/-- The values of a record are values of JSON when its strings can be read back. -/
theorem readable_failureMembers :
    (∀ m ∈ failureMembers cr failure, Readable m.2) ↔
      Writable failure.caseName ∧ Writable failure.detail ∧ Writable failure.specName ∧
        Writable failure.imageHex ∧
        (failure.hasInitialState = true →
          (∀ index, Writable (failure.initialXmmHex index)) ∧ Writable failure.initialDataHex) ∧
        (failure.hasResultState = true →
          Writable failure.nativeResultDataHex ∧ Writable failure.emuResultDataHex) ∧
        (failure.hasHostFeatures = true →
          Writable failure.hostVendor ∧ Writable failure.hostBrand) := by
  have hschema : Writable "cpueaxh.failure.v1".toList := writable_of_all (by decide)
  have hseed := writable_decimalText failure.seed.toNat
  have hinitial := readable_layoutState cr (laidOut_initialStateMembers cr failure)
    (by simp [initialStateMembers])
  have hresult := readable_layoutState cr (laidOut_resultStateMembers cr failure)
    (by simp [resultStateMembers])
  have hhost := readable_layoutState cr (laidOut_hostFeaturesMembers cr failure)
    (by simp [hostFeaturesMembers])
  -- an image that is absent is a string that can be read back
  have himage : (failure.imageHex ≠ [] → Writable failure.imageHex) ↔ Writable failure.imageHex := by
    refine ⟨fun h => ?_, fun h _ => h⟩
    by_cases hempty : failure.imageHex = []
    · rw [hempty]
      exact writable_of_all rfl
    · exact h hempty
  rw [readable_initialStateMembers] at hinitial
  rw [readable_resultStateMembers] at hresult
  rw [readable_hostFeaturesMembers] at hhost
  simp only [failureMembers, recordMembers, List.forall_mem_cons, List.forall_mem_append,
    forall_mem_ite_singleton, readable_quoted_iff, readable_decimalText, hschema, hseed, hinitial,
    hresult, hhost, himage, true_and]
  constructor
  · rintro ⟨⟨⟨⟨⟨⟨hstrings, -⟩, himage⟩, hinitial⟩, hresult⟩, hhost⟩, -⟩
    exact ⟨hstrings.1, hstrings.2.1, hstrings.2.2.1, himage, hinitial, hresult, hhost⟩
  · rintro ⟨hcase, hdetail, hspec, himage, hinitial, hresult, hhost⟩
    exact ⟨⟨⟨⟨⟨⟨⟨hcase, hdetail, hspec, by simp⟩, by simp⟩, himage⟩, hinitial⟩, hresult⟩, hhost⟩,
      hspec, writable_replayHint failure hspec, by simp⟩

/-- **The members by key.** -/
theorem mem_failureMembers (m : Text × Text) :
    m ∈ failureMembers cr failure ↔
      m = ("schema".toList, quoted "cpueaxh.failure.v1".toList) ∨
      m = ("case_name".toList, quoted failure.caseName) ∨
      m = ("detail".toList, quoted failure.detail) ∨
      m = ("spec_name".toList, quoted failure.specName) ∨
      m = ("seed_index".toList, decimalText failure.seedIndex.toNat) ∨
      failure.hasSeed = true ∧ m = ("seed".toList, quoted (decimalText failure.seed.toNat)) ∨
      failure.imageHex ≠ [] ∧ m = ("image_hex".toList, quoted failure.imageHex) ∨
      failure.hasInitialState = true ∧ m = ("initial_state".toList,
        layout (line cr 4) (line cr 2) (initialStateMembers cr failure)) ∨
      failure.hasResultState = true ∧ m = ("result_state".toList,
        layout (line cr 4) (line cr 2) (resultStateMembers cr failure)) ∨
      failure.hasHostFeatures = true ∧ m = ("host_features".toList,
        layout (line cr 4) (line cr 2) (hostFeaturesMembers cr failure)) ∨
      m = ("case_selector".toList, quoted failure.specName) ∨
      m = ("replay_hint".toList, quoted (replayHint failure)) := by
  simp only [failureMembers, recordMembers, List.mem_cons, List.mem_append, mem_ite_singleton,
    List.not_mem_nil, or_false, or_assoc]

end Records

/-! ## The diagnostic sections -/

section Diagnostics

variable {object : StrictJsonObject} {members : List (Text × Text)} {value : Text} {p : Prop}

theorem jsonValidateOptional_iff (key : Text) (h : object.Denotes members)
    (hmem : ∀ raw, (key, raw) ∈ members ↔ p ∧ raw = value) (validate : Text → Except String Unit) :
    jsonValidateOptional object key validate = .ok () ↔ (p → validate value = .ok ()) := by
  by_cases hp : p
  · rw [jsonValidateOptional, rawValue_eq h ((hmem value).mpr ⟨hp, rfl⟩)]
    simp [hp]
  · have hnone : object.rawValue key = none := by
      rw [StrictJsonObject.rawValue, Option.eq_none_iff_forall_ne_some]
      intro raw hraw
      exact hp ((hmem raw).mp ((h.raw key raw).mp hraw)).1
    rw [jsonValidateOptional, hnone]
    simp [hp]

/-- A diagnostic string passes when it is absent or not empty. -/
theorem diagnostic_iff (key : Text) (h : object.Denotes members)
    (hmem : ∀ raw, (key, raw) ∈ members ↔ p ∧ raw = quoted value) (hvalue : Writable value) :
    ((object.rawValue key).isSome = true → (object.requiredString key).isSome = true) ↔
      (p → value ≠ []) := by
  have hraw : (object.rawValue key).isSome = true ↔ p := by
    rw [Option.isSome_iff_exists]
    constructor
    · rintro ⟨raw, hraw⟩
      exact ((hmem raw).mp ((h.raw key raw).mp hraw)).1
    · exact fun hp => ⟨_, rawValue_eq h ((hmem _).mpr ⟨hp, rfl⟩)⟩
  rw [hraw]
  exact forall_congr' fun hp => requiredString_isSome h ((hmem _).mpr ⟨hp, rfl⟩) hvalue

/-- What the diagnostics are validated for. -/
theorem jsonValidateGeneratedReplayDiagnostics_eq_ok :
    jsonValidateGeneratedReplayDiagnostics object = .ok () ↔
      jsonRequiredStringFields object ["schema".toList, "case_selector".toList]
        "generated replay" = .ok () ∧
      jsonRequiredU64Fields object ["seed_index".toList] "generated replay" = .ok () ∧
      (∀ key ∈ ["case_name".toList, "detail".toList, "spec_name".toList, "image_hex".toList,
          "replay_hint".toList],
        (object.rawValue key).isSome = true → (object.requiredString key).isSome = true) ∧
      ((object.rawValue "seed".toList).isSome = true →
        (object.stringValues "seed".toList).isSome = true ∨
          (object.u64Values "seed".toList).isSome = true) ∧
      jsonValidateOptional object "initial_state".toList jsonValidateGeneratedInitialState =
        .ok () ∧
      jsonValidateOptional object "result_state".toList jsonValidateGeneratedResultState =
        .ok () ∧
      jsonValidateOptional object "host_features".toList jsonValidateHostFeaturesValue =
        .ok () := by
  have hfind : ∀ keys : List Text,
      keys.find? (fun key => (object.rawValue key).isSome &&
        (object.requiredString key).isNone) = none ↔
      ∀ key ∈ keys, (object.rawValue key).isSome = true →
        (object.requiredString key).isSome = true := by
    intro keys
    simp [List.find?_eq_none, Option.isSome_iff_ne_none]
  have hseed : ((object.rawValue "seed".toList).isSome &&
        (object.stringValues "seed".toList).isNone &&
        (object.u64Values "seed".toList).isNone) = true ↔
      ¬ ((object.rawValue "seed".toList).isSome = true →
        (object.stringValues "seed".toList).isSome = true ∨
          (object.u64Values "seed".toList).isSome = true) := by
    cases object.rawValue "seed".toList <;> cases object.stringValues "seed".toList <;>
      cases object.u64Values "seed".toList <;> simp
  have herror : ∀ (error : String) (rest : Unit → Except String Unit),
      ¬ (Except.error error >>= rest = .ok ()) := by
    intro error rest h
    cases h
  rw [jsonValidateGeneratedReplayDiagnostics, ← hfind]
  simp only [bind_unit_eq_ok]
  refine and_congr_right fun _ => and_congr_right fun _ => ?_
  split
  · next key hsome =>
    refine iff_of_false (herror _ _) fun h => ?_
    rw [hsome] at h
    cases h.1
  · next hnone =>
    rw [ok_bind]
    split
    · next hbad => exact iff_of_false (herror _ _) fun h => hseed.mp hbad h.2.1
    · next hgood =>
      rw [ok_bind, bind_unit_eq_ok, bind_unit_eq_ok]
      exact ⟨fun h => ⟨hnone, not_not.mp (mt hseed.mpr hgood), h⟩, fun h => h.2.2⟩

section Validation

variable {cr : Bool} {failure : Failure}

/-- The diagnostic strings pass when the detail is there. -/
theorem diagnosticStrings_iff (h : object.Denotes (failureMembers cr failure))
    (hcase : failure.caseName ≠ []) (hspec : failure.specName ≠ [])
    (hreadable : ∀ m ∈ failureMembers cr failure, Readable m.2) :
    (∀ key ∈ ["case_name".toList, "detail".toList, "spec_name".toList, "image_hex".toList,
        "replay_hint".toList],
      (object.rawValue key).isSome = true → (object.requiredString key).isSome = true) ↔
      failure.detail ≠ [] := by
  obtain ⟨hcase', hdetail', hspec', himage', -⟩ :=
    (readable_failureMembers cr failure).mp hreadable
  have hmem := mem_failureMembers cr failure
  have hname := @diagnostic_iff _ _ _ True "case_name".toList h
    (fun raw => by simp +decide [hmem]) hcase'
  have hdetail := @diagnostic_iff _ _ _ True "detail".toList h
    (fun raw => by simp +decide [hmem]) hdetail'
  have hspecName := @diagnostic_iff _ _ _ True "spec_name".toList h
    (fun raw => by simp +decide [hmem]) hspec'
  have himage := @diagnostic_iff _ _ _ (failure.imageHex ≠ []) "image_hex".toList h
    (fun raw => by simp +decide [hmem]) himage'
  have hhint := @diagnostic_iff _ _ _ True "replay_hint".toList h
    (fun raw => by simp +decide [hmem]) (writable_replayHint failure hspec')
  have hcommand : replayHint failure ≠ [] := by simp [replayHint, stream]
  simp only [List.forall_mem_cons, hname, hdetail, hspecName, himage, hhint]
  simp [hcase, hspec, hcommand]

/-- A seed is written as a string. -/
theorem seed_recorded (h : object.Denotes (failureMembers cr failure))
    (hsome : (object.rawValue "seed".toList).isSome = true) :
    (object.stringValues "seed".toList).isSome = true := by
  obtain ⟨raw, hraw⟩ := Option.isSome_iff_exists.mp hsome
  have hmember := (h.raw _ _).mp hraw
  have hvalue : raw = quoted (decimalText failure.seed.toNat) := by
    have hfield := (mem_failureMembers cr failure _).mp hmember
    simp +decide at hfield
    exact hfield.2
  have htoken := stringToken_quoted (writable_decimalText failure.seed.toNat) []
  rw [List.append_nil] at htoken
  exact Option.isSome_iff_exists.mpr ⟨_, (h.string _ _).mpr ⟨_, hvalue ▸ hmember, htoken⟩⟩

/-- What a replay asks for is there. -/
theorem selection_recorded (h : object.Denotes (failureMembers cr failure))
    (hspec : failure.specName ≠ []) (hwritable : Writable failure.specName) :
    object.requiredString "schema".toList = some "cpueaxh.failure.v1".toList ∧
      object.requiredString "case_selector".toList = some failure.specName ∧
      object.requiredU64 "seed_index".toList = some failure.seedIndex := by
  have hmem := mem_failureMembers cr failure
  have hselector : ("case_selector".toList, quoted failure.specName) ∈
      failureMembers cr failure := (hmem _).mpr (by simp)
  have hindex : ("seed_index".toList, decimalText failure.seedIndex.toNat) ∈
      failureMembers cr failure := (hmem _).mpr (by simp)
  refine ⟨?_, ?_, ?_⟩
  · rw [requiredString_eq h ((hmem _).mpr (.inl rfl)) (writable_of_all (by decide)),
      if_neg (by decide)]
  · rw [requiredString_eq h hselector hwritable, if_neg hspec]
  · rw [requiredU64_eq h hindex failure.seedIndex.isLt, BitVec.ofNat_toNat]
    rfl

/-- **The diagnostics of a record** whose strings can be read back are valid when its detail
and the strings of its sections are not empty. -/
theorem diagnostics_iff (h : object.Denotes (failureMembers cr failure))
    (hcase : failure.caseName ≠ []) (hspec : failure.specName ≠ [])
    (hreadable : ∀ m ∈ failureMembers cr failure, Readable m.2) :
    jsonValidateGeneratedReplayDiagnostics object = .ok () ↔
      failure.detail ≠ [] ∧
      (failure.hasInitialState = true → failure.initialDataHex ≠ []) ∧
      (failure.hasResultState = true →
        failure.nativeResultDataHex ≠ [] ∧ failure.emuResultDataHex ≠ []) ∧
      (failure.hasHostFeatures = true → failure.hostVendor ≠ [] ∧ failure.hostBrand ≠ []) := by
  obtain ⟨-, -, hspec', -, hinitial', hresult', hhost'⟩ :=
    (readable_failureMembers cr failure).mp hreadable
  have hmem := mem_failureMembers cr failure
  obtain ⟨hschema, hselector, hindex⟩ := selection_recorded h hspec hspec'
  have hstrings : jsonRequiredStringFields object ["schema".toList, "case_selector".toList]
      "generated replay" = .ok () := by
    simp only [jsonRequiredStringFields_eq_ok, List.forall_mem_cons, hschema, hselector]
    simp
  have hnumbers : jsonRequiredU64Fields object ["seed_index".toList] "generated replay" =
      .ok () := by
    simp only [jsonRequiredU64Fields_eq_ok, List.forall_mem_cons, hindex]
    simp
  have hinitial := @jsonValidateOptional_iff _ _
    (layout (line cr 4) (line cr 2) (initialStateMembers cr failure)) (failure.hasInitialState = true)
    "initial_state".toList h (fun raw => by simp +decide [hmem]) jsonValidateGeneratedInitialState
  have hresult := @jsonValidateOptional_iff _ _
    (layout (line cr 4) (line cr 2) (resultStateMembers cr failure)) (failure.hasResultState = true)
    "result_state".toList h (fun raw => by simp +decide [hmem]) jsonValidateGeneratedResultState
  have hhost := @jsonValidateOptional_iff _ _
    (layout (line cr 4) (line cr 2) (hostFeaturesMembers cr failure)) (failure.hasHostFeatures = true)
    "host_features".toList h (fun raw => by simp +decide [hmem]) jsonValidateHostFeaturesValue
  have hinitialData := forall_congr' fun hp => jsonValidateGeneratedInitialState_iff cr failure
    (hinitial' hp).1 (hinitial' hp).2
  have hresultData := forall_congr' fun hp => jsonValidateGeneratedResultState_iff cr failure
    (hresult' hp).1 (hresult' hp).2
  have hhostData := forall_congr' fun hp => jsonValidateHostFeaturesValue_iff cr failure
    (hhost' hp).1 (hhost' hp).2
  rw [jsonValidateGeneratedReplayDiagnostics_eq_ok, hinitial, hresult, hhost, hinitialData,
    hresultData, hhostData, diagnosticStrings_iff h hcase hspec hreadable]
  constructor
  · rintro ⟨-, -, hdetail, -, hsections⟩
    exact ⟨hdetail, hsections⟩
  · rintro ⟨hdetail, hsections⟩
    exact ⟨hstrings, hnumbers, hdetail, fun hsome => .inl (seed_recorded h hsome), hsections⟩

end Validation

end Diagnostics

/-! ## The keys -/

section Keys

variable (cr : Bool) (failure : Failure)

theorem keysOk_schema : KeysOk ["schema".toList] [] true (failureMembers cr failure) :=
  ⟨(laidOut_failureMembers cr failure).nodup, fun _ _ => .inl rfl, fun _ hkey =>
    List.mem_map.mpr ⟨_, List.mem_cons_self .., (List.mem_singleton.mp hkey).symm⟩⟩

theorem keysOk_generated :
    KeysOk ["schema".toList, "case_selector".toList, "seed_index".toList]
      ["case_name".toList, "detail".toList, "spec_name".toList, "seed".toList, "image_hex".toList,
        "replay_hint".toList, "initial_state".toList, "result_state".toList,
        "host_features".toList] false (failureMembers cr failure) := by
  refine ⟨(laidOut_failureMembers cr failure).nodup, fun key hkey => .inr ?_, ?_⟩
  · exact (show ∀ key ∈ failureKeys, _ ∨ _ by decide) key
      ((keysOf_failureMembers_sublist cr failure).subset hkey)
  · have hselector : ("case_selector".toList, quoted failure.specName) ∈
        failureMembers cr failure := (mem_failureMembers cr failure _).mpr (by simp)
    have hindex : ("seed_index".toList, decimalText failure.seedIndex.toNat) ∈
        failureMembers cr failure := (mem_failureMembers cr failure _).mpr (by simp)
    simp only [List.forall_mem_cons]
    exact ⟨List.mem_map.mpr ⟨_, List.mem_cons_self .., rfl⟩, List.mem_map.mpr ⟨_, hselector, rfl⟩,
      List.mem_map.mpr ⟨_, hindex, rfl⟩, by simp⟩

end Keys

/-! ## The replay -/

/-- A failure whose record is read back: each of its strings can be, and no diagnostic string
of it is empty.  An image that is empty is not written. -/
structure Failure.ReadsBack (failure : Failure) : Prop where
  caseName : Writable failure.caseName
  detail : IsNonEmptyString failure.detail
  specName : Writable failure.specName
  imageHex : Writable failure.imageHex
  initialState : failure.hasInitialState = true →
    (∀ index, Writable (failure.initialXmmHex index)) ∧ IsNonEmptyString failure.initialDataHex
  resultState : failure.hasResultState = true →
    IsNonEmptyString failure.nativeResultDataHex ∧ IsNonEmptyString failure.emuResultDataHex
  hostFeatures : failure.hasHostFeatures = true →
    IsNonEmptyString failure.hostVendor ∧ IsNonEmptyString failure.hostBrand

/-- The record that is written for a failure is accepted, and selects its case. -/
def Replays (path : String) (cr : Bool) (failure : Failure) (options : TestOptions) : Prop :=
  ∃ options', applyReplayFile path (some (textFile cr (writeFailureRecord failure))) options =
      .ok options' ∧
    options'.exactCase = failure.specName ∧ options'.hasSeedIndex = true ∧
      options'.seedIndex = failure.seedIndex

section Replay

variable {path : String} {cr : Bool} {failure : Failure} {options : TestOptions}

theorem readsBack_iff :
    failure.ReadsBack ↔ (∀ m ∈ failureMembers cr failure, Readable m.2) ∧
      failure.detail ≠ [] ∧
      (failure.hasInitialState = true → failure.initialDataHex ≠ []) ∧
      (failure.hasResultState = true →
        failure.nativeResultDataHex ≠ [] ∧ failure.emuResultDataHex ≠ []) ∧
      (failure.hasHostFeatures = true → failure.hostVendor ≠ [] ∧ failure.hostBrand ≠ []) := by
  rw [readable_failureMembers]
  constructor
  · intro h
    exact ⟨⟨h.caseName, h.detail.1, h.specName, h.imageHex,
      fun hp => ⟨(h.initialState hp).1, (h.initialState hp).2.1⟩,
      fun hp => ⟨(h.resultState hp).1.1, (h.resultState hp).2.1⟩,
      fun hp => ⟨(h.hostFeatures hp).1.1, (h.hostFeatures hp).2.1⟩⟩, h.detail.2,
      fun hp => (h.initialState hp).2.2,
      fun hp => ⟨(h.resultState hp).1.2, (h.resultState hp).2.2⟩,
      fun hp => ⟨(h.hostFeatures hp).1.2, (h.hostFeatures hp).2.2⟩⟩
  · rintro ⟨⟨hcase, hdetail, hspec, himage, hinitial, hresult, hhost⟩, hdetail', hinitial',
      hresult', hhost'⟩
    exact ⟨hcase, ⟨hdetail, hdetail'⟩, hspec, himage,
      fun hp => ⟨(hinitial hp).1, (hinitial hp).2, hinitial' hp⟩,
      fun hp => ⟨⟨(hresult hp).1, (hresult' hp).1⟩, (hresult hp).2, (hresult' hp).2⟩,
      fun hp => ⟨⟨(hhost hp).1, (hhost' hp).1⟩, (hhost hp).2, (hhost' hp).2⟩⟩

/-- A record with a value that is none of JSON is not accepted. -/
theorem not_replays (htext : textFile cr (writeFailureRecord failure) =
      layout (line cr 2) (lineEnd cr) (failureMembers cr failure) ++ lineEnd cr)
    (hbad : ¬ ∀ m ∈ failureMembers cr failure, Readable m.2) :
    ¬ Replays path cr failure options := by
  rintro ⟨options', happly, -⟩
  rw [htext, applyReplayFile] at happly
  obtain ⟨object, hparse, -⟩ := bind_eq_ok.mp happly
  have herror := @parse_layout_error _ _ _ _ ["schema".toList] [] true
    (laidOut_failureMembers cr failure) (List.cons_ne_nil _ _) (isBlank_line cr 2)
    (isBlank_lineEnd cr) (isBlank_lineEnd cr) hbad
  cases hresult : jsonParseTopLevelObject (layout (line cr 2) (lineEnd cr)
      (failureMembers cr failure) ++ lineEnd cr) ["schema".toList] [] true with
  | ok object' => exact herror object' hresult
  | error error =>
    rw [hresult] at hparse
    cases hparse

/-- **A record of JSON** is accepted when its diagnostics are valid. -/
theorem replays_iff_diagnostics (htext : textFile cr (writeFailureRecord failure) =
      layout (line cr 2) (lineEnd cr) (failureMembers cr failure) ++ lineEnd cr)
    (hspec : failure.specName ≠ []) (hreadable : ∀ m ∈ failureMembers cr failure, Readable m.2) :
    Replays path cr failure options ↔
      jsonValidateGeneratedReplayDiagnostics
        ((failureMembers cr failure).foldl StrictJsonObject.record .empty) = .ok () := by
  have hlaid := laidOut_failureMembers cr failure
  have hparse : ∀ {requiredKeys optionalKeys : List Text} {allowUnknownKeys : Bool},
      KeysOk requiredKeys optionalKeys allowUnknownKeys (failureMembers cr failure) →
      jsonParseTopLevelObject (textFile cr (writeFailureRecord failure)) requiredKeys
        optionalKeys allowUnknownKeys =
        .ok ((failureMembers cr failure).foldl StrictJsonObject.record .empty) := by
    intro requiredKeys optionalKeys allowUnknownKeys hkeys
    rw [htext]
    exact parse_layout hlaid (List.cons_ne_nil _ _) (isBlank_line cr 2) (isBlank_lineEnd cr)
      (isBlank_lineEnd cr) hreadable hkeys
  have hspec' := ((readable_failureMembers cr failure).mp hreadable).2.2.1
  have hdenotes := denotes_record hlaid.nodup
  have hschema := hparse (keysOk_schema cr failure)
  have hgenerated := hparse (keysOk_generated cr failure)
  generalize (failureMembers cr failure).foldl StrictJsonObject.record .empty = object
    at hdenotes hschema hgenerated ⊢
  obtain ⟨hfailure, hselector, hindex⟩ := selection_recorded hdenotes hspec hspec'
  have happly : applyReplayFile path (some (textFile cr (writeFailureRecord failure))) options =
      applyGeneratedReplay path (textFile cr (writeFailureRecord failure)) options := by
    rw [applyReplayFile, hschema]
    simp only [Except.mapError, ok_bind, hfailure]
    rw [if_neg (by decide), if_neg (by simp)]
  unfold Replays
  rw [happly, applyGeneratedReplay, hgenerated]
  simp only [Except.mapError, ok_bind, hselector, hindex]
  cases hvalid : jsonValidateGeneratedReplayDiagnostics object with
  | error error =>
    refine iff_of_false ?_ fun h => by cases h
    rintro ⟨options', hfailed, -⟩
    cases hfailed
  | ok value =>
    exact iff_of_true ⟨_, rfl, rfl, rfl, rfl⟩ rfl

theorem replays_iff_readsBack (hcase : failure.caseName ≠ []) (hspec : failure.specName ≠ [])
    (hindex : failure.hasSeedIndex = true) :
    Replays path cr failure options ↔ failure.ReadsBack := by
  have htext : textFile cr (writeFailureRecord failure) =
      layout (line cr 2) (lineEnd cr) (failureMembers cr failure) ++ lineEnd cr :=
    textFile_failureRecord cr hspec hindex
  by_cases hreadable : ∀ m ∈ failureMembers cr failure, Readable m.2
  · have hdenotes := denotes_record (laidOut_failureMembers cr failure).nodup
    rw [replays_iff_diagnostics htext hspec hreadable,
      diagnostics_iff hdenotes hcase hspec hreadable, @readsBack_iff cr]
    exact (and_iff_right hreadable).symm
  · exact iff_of_false (not_replays htext hreadable) fun h =>
      hreadable ((@readsBack_iff cr failure).mp h).1

end Replay

/-- **Failure records replay** exactly when each string can be read back and no diagnostic
string is empty. -/
theorem failureRecord_replays_iff (path : String) (cr : Bool) (failure : Failure)
    (options : TestOptions) (hcase : failure.caseName ≠ []) (hspec : failure.specName ≠ [])
    (hindex : failure.hasSeedIndex = true) :
    Replays path cr failure options ↔ failure.ReadsBack :=
  replays_iff_readsBack hcase hspec hindex

/-! ### A failure with every section -/

/-- A failure of one case, with a detail of its own. -/
def sampleFailure (detail : Text) : Failure where
  caseName := "sub".toList
  detail := detail
  specName := "sub_r32_rm32".toList
  imageHex := "29c8".toList
  initialRegs := fun _ => 0
  initialXmmHex := fun _ => "00".toList
  initialDataHex := "90".toList
  nativeResultRegs := fun _ => 0
  emuResultRegs := fun _ => 1
  nativeResultDataHex := "90".toList
  emuResultDataHex := "91".toList
  seed := 0x1234
  seedIndex := 7
  initialRip := 0x1000
  initialRflags := 0x202
  initialMxcsr := 0x1F80
  initialDataOffset := 0
  nativeResultRip := 0x1002
  nativeResultRflags := 0x246
  nativeResultMxcsr := 0x1F80
  emuResultRip := 0x1002
  emuResultRflags := 0x202
  emuResultMxcsr := 0x1F80
  hostVendor := "GenuineIntel".toList
  hostBrand := "CPU".toList
  hostMaxLeaf := 22
  hostMaxLeaf7 := 0
  hostMaxExtendedLeaf := 8
  hostFamily := 6
  hostModel := 158
  hostStepping := 10
  hostFeatureAvx := true
  hostFeatureAvx2 := true
  hostFeatureFma := true
  hostFeatureSha := false
  hostFeaturePopcnt := true
  hostFeatureSsse3 := true
  hostFeatureSse41 := true
  hostFeatureSse42 := true
  hostFeatureAes := true
  hostFeatureRdpid := false
  hostFeatureBmi1 := true
  hostFeatureBmi2 := true
  hostFeatureRdseed := true
  hostFeatureFsgsbase := true
  hostFeatureSerialize := false
  hostFeatureLzcnt := true
  hostFeatureMovbe := true
  hasSeed := true
  hasSeedIndex := true
  hasInitialState := true
  hasResultState := true
  hasHostFeatures := true

/-- Options with nothing selected. -/
def noOptions : TestOptions := ⟨false, false, 0, [], [], [], false⟩

/-- The record of a failure with a detail replays. -/
theorem sampleFailure_replays :
    Replays "failure.json" true (sampleFailure "eax".toList) noOptions := by
  have hbytes : ∀ value : Text, value.all isWritable = true → value ≠ [] →
      IsNonEmptyString value := fun _ h hne => ⟨writable_of_all h, hne⟩
  refine (failureRecord_replays_iff "failure.json" true (sampleFailure "eax".toList) noOptions
    (by decide) (by decide) rfl).mpr ?_
  exact ⟨writable_of_all rfl, hbytes _ rfl (by decide), writable_of_all rfl, writable_of_all rfl,
    fun _ => ⟨fun _ => writable_of_all rfl, hbytes _ rfl (by decide)⟩,
    fun _ => ⟨hbytes _ rfl (by decide), hbytes _ rfl (by decide)⟩,
    fun _ => ⟨hbytes _ rfl (by decide), hbytes _ rfl (by decide)⟩⟩

/-- With a control character in the detail, or with no detail, the record of the same failure
is not accepted. -/
theorem sampleFailure_not_replayed :
    ¬ Replays "failure.json" false (sampleFailure [Char.ofNat 1]) noOptions ∧
      ¬ Replays "failure.json" false (sampleFailure []) noOptions := by
  constructor
  · rw [replays_iff_readsBack (by decide) (by decide) rfl]
    intro h
    exact absurd (h.detail.1 (Char.ofNat 1) (List.mem_cons_self ..)) (by decide)
  · rw [replays_iff_readsBack (by decide) (by decide) rfl]
    exact fun h => h.detail.2 rfl

end Cpueaxh
