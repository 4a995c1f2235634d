/-
# Reading the sections of a record

The members of each section are laid out with plain keys and written values.  When the values
of a section are values of JSON, its validation fails only on a string that is empty: the
bytes of a state, or the vendor and the brand of the host.
-/
import Cpueaxh.LayoutReads

namespace Cpueaxh

open JsonGrammar

/-- A string that is read back and counts as one that is there. -/
def IsNonEmptyString (value : Text) : Prop := Writable value ∧ value ≠ []

/-! ## Members and their values -/

section Members

variable {members : List (Text × Text)} {keys : List Text} {object : StrictJsonObject}
  {key value : Text}

theorem laidOut_of_keys (hkeys : keysOf members = keys) (hplain : keys.all (·.all isPlain) = true)
    (hnodup : keys.Nodup) (hwritten : ∀ m ∈ members, WrittenValue m.2) : LaidOut members := by
  rw [← hkeys] at hnodup
  refine ⟨fun m hm c hc => ?_, hnodup, hwritten⟩
  have hkey : m.1 ∈ keys := hkeys ▸ List.mem_map.mpr ⟨m, hm, rfl⟩
  exact List.all_eq_true.mp (List.all_eq_true.mp hplain m.1 hkey) c hc

theorem writable_of_all (h : value.all isWritable = true) : Writable value :=
  List.all_eq_true.mp h

theorem writable_hex64 (value : U64) : Writable (hex64 value) := fun _ hc =>
  isWritable_of_isPlain (isPlain_hex64 hc)

theorem writable_decimalText (n : ℕ) : Writable (decimalText n) := fun _ hc =>
  isWritable_of_isPlain (isPlain_decimalText hc)

theorem requiredString_isSome (h : object.Denotes members) (hmem : (key, quoted value) ∈ members)
    (hvalue : Writable value) : (object.requiredString key).isSome = true ↔ value ≠ [] := by
  rw [requiredString_eq h hmem hvalue]
  split_ifs with hempty
  · simp [hempty]
  · simp [hempty]

theorem requiredHex64_isSome (h : object.Denotes members) {bits : U64}
    (hmem : (key, quoted (hex64 bits)) ∈ members) :
    (object.requiredString key).isSome = true :=
  (requiredString_isSome h hmem (writable_hex64 bits)).mpr (hex64_ne_nil bits)

theorem requiredU32_isSome (h : object.Denotes members) {bits : U32}
    (hmem : (key, decimalText bits.toNat) ∈ members) :
    (object.requiredU64 key).isSome = true := by
  rw [requiredU64_eq h hmem (Nat.lt_trans bits.isLt (by decide))]
  rfl

/-- A schema that is written is the one that is expected. -/
theorem jsonRequiredSchema_written (h : object.Denotes members) {schema : Text} {label : String}
    (hmem : ("schema".toList, quoted schema) ∈ members) (hwritable : schema.all isWritable = true)
    (hne : schema ≠ []) : jsonRequiredSchema object schema label = .ok () := by
  refine jsonRequiredSchema_ok ?_
  rw [requiredString_eq h hmem (writable_of_all hwritable), if_neg hne]

theorem jsonValidateField_eq (h : object.Denotes members) (hmem : (key, value) ∈ members)
    (validate : Text → Except String Unit) :
    jsonValidateField object key validate = validate value := by
  rw [jsonValidateField, rawValue_eq h hmem]

theorem ok_bind {α β : Type} (a : α) (f : α → Except String β) : Except.ok a >>= f = f a := rfl

/-- Two checks pass exactly when each does. -/
theorem bind_unit_eq_ok {first : Except String Unit} {second : Unit → Except String Unit} :
    first >>= second = .ok () ↔ first = .ok () ∧ second () = .ok () := by
  rw [bind_eq_ok]
  constructor
  · rintro ⟨⟨⟩, h⟩
    exact h
  · exact fun h => ⟨(), h⟩

end Members

/-! ## The registers -/

section Registers

variable (cr : Bool) (regs : Fin 16 → U64)

theorem keysOf_gprMembers : keysOf (gprMembers regs) = jsonGprFieldNames := by
  rw [keysOf, gprMembers, List.map_map]
  rfl

theorem gprMembers_ne_nil : gprMembers regs ≠ [] := by
  simp [gprMembers]

theorem mem_gprMembers {m : Text × Text} (hm : m ∈ gprMembers regs) :
    ∃ bits : U64, m.2 = quoted (hex64 bits) := by
  obtain ⟨index, -, rfl⟩ := List.mem_map.mp hm
  exact ⟨regs index, rfl⟩

theorem laidOut_gprMembers : LaidOut (gprMembers regs) := by
  refine laidOut_of_keys (keysOf_gprMembers regs) (by decide) (by decide) fun m hm => ?_
  obtain ⟨bits, hbits⟩ := mem_gprMembers regs hm
  exact hbits ▸ written_quoted _

theorem readable_gprMembers : ∀ m ∈ gprMembers regs, Readable m.2 := by
  intro m hm
  obtain ⟨bits, hbits⟩ := mem_gprMembers regs hm
  exact hbits ▸ readable_quoted (writable_hex64 bits)

/-- The registers that are written are valid. -/
theorem jsonValidateGprObjectValue_written (width width' : ℕ) (label : String) :
    jsonValidateGprObjectValue (layout (line cr width) (line cr width') (gprMembers regs)) label =
      .ok () := by
  have hparse := parse_section (laidOut_gprMembers regs) (gprMembers_ne_nil regs)
    (isBlank_line cr width) (isBlank_line cr width') (readable_gprMembers regs) (label ++ " gprs")
  rw [keysOf_gprMembers] at hparse
  have hdenotes := denotes_record (laidOut_gprMembers regs).nodup
  rw [jsonValidateGprObjectValue, hparse]
  refine jsonRequiredStringFields_eq_ok.mpr fun key hkey => ?_
  rw [← keysOf_gprMembers regs] at hkey
  obtain ⟨⟨key', value⟩, hmem, rfl⟩ := List.mem_map.mp hkey
  obtain ⟨bits, rfl⟩ := mem_gprMembers regs hmem
  exact requiredHex64_isSome hdenotes hmem

theorem readable_gprs (width width' : ℕ) :
    Readable (layout (line cr width) (line cr width') (gprMembers regs)) :=
  (readable_layout_iff (laidOut_gprMembers regs) (gprMembers_ne_nil regs) (isBlank_line cr width)
    (isBlank_line cr width')).mpr (readable_gprMembers regs)

end Registers

/-! ## The states -/

section States

variable (cr : Bool) (failure : Failure)

theorem written_xmm (initialXmmHex : Fin 16 → Text) :
    ∀ v ∈ (List.finRange 16).map (fun index => quoted (initialXmmHex index)), WrittenValue v := by
  intro v hv
  obtain ⟨index, -, rfl⟩ := List.mem_map.mp hv
  exact written_quoted _

theorem xmm_ne_nil (initialXmmHex : Fin 16 → Text) :
    (List.finRange 16).map (fun index => quoted (initialXmmHex index)) ≠ [] := by
  simp

theorem readable_xmm (initialXmmHex : Fin 16 → Text) :
    Readable (layoutItems (line cr 6) (line cr 4)
      ((List.finRange 16).map fun index => quoted (initialXmmHex index))) ↔
      ∀ index, Writable (initialXmmHex index) := by
  rw [readable_layoutItems_iff (xmm_ne_nil _) (isBlank_line cr 6) (isBlank_line cr 4)
    (written_xmm _), List.forall_mem_map]
  simp only [readable_quoted_iff, List.mem_finRange, true_implies]

theorem keysOf_initialStateMembers :
    keysOf (initialStateMembers cr failure) =
      ["schema".toList, "gprs".toList, "rip".toList, "rflags".toList, "mxcsr".toList,
        "xmm".toList, "data_offset".toList, "data_hex".toList] := rfl

theorem laidOut_initialStateMembers : LaidOut (initialStateMembers cr failure) := by
  refine laidOut_of_keys (keysOf_initialStateMembers cr failure) (by decide) (by decide) ?_
  have hgprs := (readable_gprs cr failure.initialRegs 6 4).written
  have hxmm := written_layoutItems (xmm_ne_nil failure.initialXmmHex) (isBlank_line cr 6)
    (isBlank_line cr 4) (written_xmm _)
  have hoffset := (readable_decimalText failure.initialDataOffset.toNat).written
  simp only [initialStateMembers, List.forall_mem_cons]
  exact ⟨written_quoted _, hgprs, written_quoted _, written_quoted _, written_quoted _, hxmm,
    hoffset, written_quoted _, by simp⟩

theorem readable_initialStateMembers :
    (∀ m ∈ initialStateMembers cr failure, Readable m.2) ↔
      (∀ index, Writable (failure.initialXmmHex index)) ∧ Writable failure.initialDataHex := by
  have hgprs := readable_gprs cr failure.initialRegs 6 4
  have hschema : Writable "cpueaxh.generated-initial-state.v1".toList :=
    writable_of_all (by decide)
  simp only [initialStateMembers, List.forall_mem_cons, readable_quoted_iff, readable_xmm,
    readable_decimalText, writable_hex64, hgprs, hschema, true_and]
  simp

/-- An array that is a value is valid. -/
theorem jsonValidateArrayValue_readable {s : Text} (h : Readable ('[' :: s)) (label : String) :
    jsonValidateArrayValue ('[' :: s) label = .ok () := by
  obtain ⟨scalars, hvalue⟩ := h
  have hderives := hvalue [] .nil
  rw [List.append_nil] at hderives
  have hskip : jsonSkipValueStrict ('[' :: s) = .ok [] :=
    (readsValues _).complete (Nat.le_refl _) .none hderives .nil
  have hopen : jsonSkipWs ('[' :: s) = '[' :: s := rfl
  simp only [jsonValidateArrayValue, hopen, hskip]
  rfl

theorem jsonValidateArrayValue_xmm (initialXmmHex : Fin 16 → Text)
    (h : ∀ index, Writable (initialXmmHex index)) (label : String) :
    jsonValidateArrayValue (layoutItems (line cr 6) (line cr 4)
      ((List.finRange 16).map fun index => quoted (initialXmmHex index))) label = .ok () :=
  jsonValidateArrayValue_readable ((readable_xmm cr initialXmmHex).mpr h) label

/-- **An initial state is valid** when its bytes are there. -/
theorem jsonValidateGeneratedInitialState_iff
    (hxmm : ∀ index, Writable (failure.initialXmmHex index))
    (hdata : Writable failure.initialDataHex) :
    jsonValidateGeneratedInitialState
        (layout (line cr 4) (line cr 2) (initialStateMembers cr failure)) = .ok () ↔
      failure.initialDataHex ≠ [] := by
  have hlaid := laidOut_initialStateMembers cr failure
  have hparse := parse_section hlaid (by simp [initialStateMembers]) (isBlank_line cr 4)
    (isBlank_line cr 2) ((readable_initialStateMembers cr failure).mpr ⟨hxmm, hdata⟩)
    "initial_state"
  have hdenotes := denotes_record hlaid.nodup
  rw [keysOf_initialStateMembers] at hparse
  generalize (initialStateMembers cr failure).foldl StrictJsonObject.record .empty = object
    at hparse hdenotes
  have hmem : ∀ {i : ℕ} {m : Text × Text}, (initialStateMembers cr failure)[i]? = some m →
      m ∈ initialStateMembers cr failure := List.mem_of_getElem?
  have hschema : jsonRequiredSchema object "cpueaxh.generated-initial-state.v1".toList
      "initial_state" = .ok () :=
    jsonRequiredSchema_written hdenotes (hmem (i := 0) rfl) (by decide) (by decide)
  have hstrings : jsonRequiredStringFields object ["rip".toList, "rflags".toList, "mxcsr".toList,
      "data_hex".toList] "initial_state" = .ok () ↔ failure.initialDataHex ≠ [] := by
    have hrip := requiredHex64_isSome hdenotes (hmem (i := 2) rfl)
    have hrflags := requiredHex64_isSome hdenotes (hmem (i := 3) rfl)
    have hmxcsr := requiredHex64_isSome hdenotes (hmem (i := 4) rfl)
    have hbytes := requiredString_isSome hdenotes (hmem (i := 7) rfl) hdata
    simp only [jsonRequiredStringFields_eq_ok, List.forall_mem_cons, hrip, hrflags, hmxcsr,
      hbytes, true_and]
    simp
  have hoffset : jsonRequiredU64Fields object ["data_offset".toList] "initial_state" = .ok () := by
    have hvalue := requiredU32_isSome hdenotes (hmem (i := 6) rfl)
    simp only [jsonRequiredU64Fields_eq_ok, List.forall_mem_cons, hvalue, true_and]
    simp
  have hgprs := jsonValidateField_eq hdenotes (hmem (i := 1) rfl) fun gprs =>
    jsonValidateGprObjectValue gprs "initial_state"
  have hxmm' := jsonValidateField_eq hdenotes (hmem (i := 5) rfl) fun xmm =>
    jsonValidateArrayValue xmm "initial_state.xmm"
  rw [jsonValidateGprObjectValue_written] at hgprs
  rw [jsonValidateArrayValue_xmm cr _ hxmm] at hxmm'
  rw [jsonValidateGeneratedInitialState, hparse]
  simp only [ok_bind, bind_unit_eq_ok, hschema, hstrings, hoffset, hgprs, hxmm', and_true]

/-! ### The results -/

section Entries

variable (regs : Fin 16 → U64) (rip rflags : U64) (mxcsr : U32) {dataHex : Text}

theorem keysOf_resultEntryMembers (dataHex : Text) :
    keysOf (resultEntryMembers cr regs rip rflags mxcsr dataHex) =
      ["gprs".toList, "rip".toList, "rflags".toList, "mxcsr".toList, "data_hex".toList] := rfl

theorem laidOut_resultEntryMembers (dataHex : Text) :
    LaidOut (resultEntryMembers cr regs rip rflags mxcsr dataHex) := by
  refine laidOut_of_keys (keysOf_resultEntryMembers cr regs rip rflags mxcsr dataHex) (by decide)
    (by decide) ?_
  have hgprs := (readable_gprs cr regs 8 6).written
  simp only [resultEntryMembers, List.forall_mem_cons]
  exact ⟨hgprs, written_quoted _, written_quoted _, written_quoted _, written_quoted _, by simp⟩

theorem readable_resultEntryMembers :
    (∀ m ∈ resultEntryMembers cr regs rip rflags mxcsr dataHex, Readable m.2) ↔
      Writable dataHex := by
  have hgprs := readable_gprs cr regs 8 6
  simp only [resultEntryMembers, List.forall_mem_cons, readable_quoted_iff, writable_hex64, hgprs,
    true_and]
  simp

/-- **A result is valid** when its bytes are there. -/
theorem jsonValidateGeneratedResultEntry_iff (hdata : Writable dataHex) (label : String) :
    jsonValidateGeneratedResultEntry
        (layout (line cr 6) (line cr 4) (resultEntryMembers cr regs rip rflags mxcsr dataHex))
        label = .ok () ↔ dataHex ≠ [] := by
  have hlaid := laidOut_resultEntryMembers cr regs rip rflags mxcsr dataHex
  have hparse := parse_section hlaid (by simp [resultEntryMembers]) (isBlank_line cr 6)
    (isBlank_line cr 4) ((readable_resultEntryMembers cr regs rip rflags mxcsr).mpr hdata) label
  have hdenotes := denotes_record hlaid.nodup
  rw [keysOf_resultEntryMembers] at hparse
  generalize (resultEntryMembers cr regs rip rflags mxcsr dataHex).foldl
    StrictJsonObject.record .empty = object at hparse hdenotes
  have hmem : ∀ {i : ℕ} {m : Text × Text},
      (resultEntryMembers cr regs rip rflags mxcsr dataHex)[i]? = some m →
      m ∈ resultEntryMembers cr regs rip rflags mxcsr dataHex := List.mem_of_getElem?
  have hstrings : jsonRequiredStringFields object ["rip".toList, "rflags".toList, "mxcsr".toList,
      "data_hex".toList] label = .ok () ↔ dataHex ≠ [] := by
    have hrip := requiredHex64_isSome hdenotes (hmem (i := 1) rfl)
    have hrflags := requiredHex64_isSome hdenotes (hmem (i := 2) rfl)
    have hmxcsr := requiredHex64_isSome hdenotes (hmem (i := 3) rfl)
    have hbytes := requiredString_isSome hdenotes (hmem (i := 4) rfl) hdata
    simp only [jsonRequiredStringFields_eq_ok, List.forall_mem_cons, hrip, hrflags, hmxcsr,
      hbytes, true_and]
    simp
  have hgprs := jsonValidateField_eq hdenotes (hmem (i := 0) rfl) fun gprs =>
    jsonValidateGprObjectValue gprs label
  rw [jsonValidateGprObjectValue_written] at hgprs
  rw [jsonValidateGeneratedResultEntry, hparse]
  simp only [ok_bind, bind_unit_eq_ok, hstrings, hgprs, and_true]

theorem written_resultEntry (dataHex : Text) :
    WrittenValue (layout (line cr 6) (line cr 4)
      (resultEntryMembers cr regs rip rflags mxcsr dataHex)) :=
  written_layout (laidOut_resultEntryMembers cr regs rip rflags mxcsr dataHex)
    (by simp [resultEntryMembers]) (isBlank_line cr 6) (isBlank_line cr 4)

theorem readable_resultEntry :
    Readable (layout (line cr 6) (line cr 4)
      (resultEntryMembers cr regs rip rflags mxcsr dataHex)) ↔ Writable dataHex := by
  rw [readable_layout_iff (laidOut_resultEntryMembers cr regs rip rflags mxcsr dataHex)
    (by simp [resultEntryMembers]) (isBlank_line cr 6) (isBlank_line cr 4),
    readable_resultEntryMembers]

end Entries

theorem keysOf_resultStateMembers :
    keysOf (resultStateMembers cr failure) =
      ["schema".toList, "native_result".toList, "emu_result".toList] := rfl

theorem laidOut_resultStateMembers : LaidOut (resultStateMembers cr failure) := by
  refine laidOut_of_keys (keysOf_resultStateMembers cr failure) (by decide) (by decide) ?_
  simp only [resultStateMembers, List.forall_mem_cons]
  exact ⟨written_quoted _, written_resultEntry .., written_resultEntry .., by simp⟩

theorem readable_resultStateMembers :
    (∀ m ∈ resultStateMembers cr failure, Readable m.2) ↔
      Writable failure.nativeResultDataHex ∧ Writable failure.emuResultDataHex := by
  have hschema : Writable "cpueaxh.generated-result-state.v1".toList :=
    writable_of_all (by decide)
  simp only [resultStateMembers, List.forall_mem_cons, readable_quoted_iff, readable_resultEntry,
    hschema, true_and]
  simp

/-- **The two results are valid** when the bytes of each are there. -/
theorem jsonValidateGeneratedResultState_iff (hnative : Writable failure.nativeResultDataHex)
    (hemu : Writable failure.emuResultDataHex) :
    jsonValidateGeneratedResultState
        (layout (line cr 4) (line cr 2) (resultStateMembers cr failure)) = .ok () ↔
      failure.nativeResultDataHex ≠ [] ∧ failure.emuResultDataHex ≠ [] := by
  have hlaid := laidOut_resultStateMembers cr failure
  have hparse := parse_section hlaid (by simp [resultStateMembers]) (isBlank_line cr 4)
    (isBlank_line cr 2) ((readable_resultStateMembers cr failure).mpr ⟨hnative, hemu⟩)
    "result_state"
  have hdenotes := denotes_record hlaid.nodup
  rw [keysOf_resultStateMembers] at hparse
  generalize (resultStateMembers cr failure).foldl StrictJsonObject.record .empty = object
    at hparse hdenotes
  have hmem : ∀ {i : ℕ} {m : Text × Text}, (resultStateMembers cr failure)[i]? = some m →
      m ∈ resultStateMembers cr failure := List.mem_of_getElem?
  have hschema : jsonRequiredSchema object "cpueaxh.generated-result-state.v1".toList
      "result_state" = .ok () :=
    jsonRequiredSchema_written hdenotes (hmem (i := 0) rfl) (by decide) (by decide)
  have hfirst := jsonValidateField_eq hdenotes (hmem (i := 1) rfl) fun nativeResult =>
    jsonValidateGeneratedResultEntry nativeResult "result_state.native_result"
  have hsecond := jsonValidateField_eq hdenotes (hmem (i := 2) rfl) fun emuResult =>
    jsonValidateGeneratedResultEntry emuResult "result_state.emu_result"
  rw [jsonValidateGeneratedResultState, hparse]
  simp only [ok_bind, bind_unit_eq_ok, hschema, hfirst, hsecond,
    jsonValidateGeneratedResultEntry_iff, hnative, hemu]

end States

/-! ## The host -/

section Host

variable (cr : Bool) (failure : Failure)

theorem keysOf_featureMembers : keysOf (featureMembers failure) = jsonHostFeatureFieldNames := rfl

theorem featureMembers_ne_nil : featureMembers failure ≠ [] := by
  simp [featureMembers]

theorem mem_featureMembers : ∀ m ∈ featureMembers failure, ∃ b, m.2 = jsonBool b := by
  simp only [featureMembers, List.forall_mem_cons]
  simp

theorem readable_featureMembers : ∀ m ∈ featureMembers failure, Readable m.2 := by
  intro m hm
  obtain ⟨b, hb⟩ := mem_featureMembers failure m hm
  exact hb ▸ readable_jsonBool b

theorem laidOut_featureMembers : LaidOut (featureMembers failure) :=
  laidOut_of_keys (keysOf_featureMembers failure) (by decide) (by decide) fun m hm =>
    (readable_featureMembers failure m hm).written

/-- The features that are written are valid. -/
theorem jsonValidateFeatures_written :
    jsonValidateFeatures (layout (line cr 6) (line cr 4) (featureMembers failure)) = .ok () := by
  have hlaid := laidOut_featureMembers failure
  have hparse := parse_section hlaid (featureMembers_ne_nil failure) (isBlank_line cr 6)
    (isBlank_line cr 4) (readable_featureMembers failure) "host_features.features"
  have hdenotes := denotes_record hlaid.nodup
  rw [keysOf_featureMembers] at hparse
  generalize (featureMembers failure).foldl StrictJsonObject.record .empty = features
    at hparse hdenotes
  have hbool : ∀ key ∈ jsonHostFeatureFieldNames, jsonIsBool features key = true := by
    intro key hkey
    rw [← keysOf_featureMembers failure] at hkey
    obtain ⟨⟨key', value⟩, hmem, rfl⟩ := List.mem_map.mp hkey
    obtain ⟨b, rfl⟩ := mem_featureMembers failure _ hmem
    rw [jsonIsBool, rawValue_eq hdenotes hmem]
    cases b <;> rfl
  have hfind : jsonHostFeatureFieldNames.find? (fun key => !jsonIsBool features key) = none := by
    simpa [List.find?_eq_none] using hbool
  rw [jsonValidateFeatures, hparse, ok_bind, hfind]

theorem keysOf_hostFeaturesMembers :
    keysOf (hostFeaturesMembers cr failure) =
      ["schema".toList, "vendor".toList, "brand".toList, "max_leaf".toList, "max_leaf7".toList,
        "max_extended_leaf".toList, "family".toList, "model".toList, "stepping".toList,
        "features".toList] := rfl

theorem readable_features :
    Readable (layout (line cr 6) (line cr 4) (featureMembers failure)) :=
  (readable_layout_iff (laidOut_featureMembers failure) (featureMembers_ne_nil failure)
    (isBlank_line cr 6) (isBlank_line cr 4)).mpr (readable_featureMembers failure)

theorem laidOut_hostFeaturesMembers : LaidOut (hostFeaturesMembers cr failure) := by
  refine laidOut_of_keys (keysOf_hostFeaturesMembers cr failure) (by decide) (by decide) ?_
  have hnumber : ∀ n, WrittenValue (decimalText n) := fun n => (readable_decimalText n).written
  have hfeatures := (readable_features cr failure).written
  simp only [hostFeaturesMembers, List.forall_mem_cons]
  exact ⟨written_quoted _, written_quoted _, written_quoted _, hnumber _, hnumber _, hnumber _,
    hnumber _, hnumber _, hnumber _, hfeatures, by simp⟩

theorem readable_hostFeaturesMembers :
    (∀ m ∈ hostFeaturesMembers cr failure, Readable m.2) ↔
      Writable failure.hostVendor ∧ Writable failure.hostBrand := by
  have hschema : Writable "cpueaxh.host-features.v1".toList := writable_of_all (by decide)
  have hfeatures := readable_features cr failure
  simp only [hostFeaturesMembers, List.forall_mem_cons, readable_quoted_iff, readable_decimalText,
    hschema, hfeatures, true_and]
  simp

/-- **The host features are valid** when the vendor and the brand are there. -/
theorem jsonValidateHostFeaturesValue_iff (hvendor : Writable failure.hostVendor)
    (hbrand : Writable failure.hostBrand) :
    jsonValidateHostFeaturesValue
        (layout (line cr 4) (line cr 2) (hostFeaturesMembers cr failure)) = .ok () ↔
      failure.hostVendor ≠ [] ∧ failure.hostBrand ≠ [] := by
  have hlaid := laidOut_hostFeaturesMembers cr failure
  have hparse := parse_section hlaid (by simp [hostFeaturesMembers]) (isBlank_line cr 4)
    (isBlank_line cr 2) ((readable_hostFeaturesMembers cr failure).mpr ⟨hvendor, hbrand⟩)
    "host_features"
  have hdenotes := denotes_record hlaid.nodup
  rw [keysOf_hostFeaturesMembers] at hparse
  generalize (hostFeaturesMembers cr failure).foldl StrictJsonObject.record .empty = object
    at hparse hdenotes
  have hmem : ∀ {i : ℕ} {m : Text × Text}, (hostFeaturesMembers cr failure)[i]? = some m →
      m ∈ hostFeaturesMembers cr failure := List.mem_of_getElem?
  have hschema : jsonRequiredSchema object "cpueaxh.host-features.v1".toList "host_features" =
      .ok () :=
    jsonRequiredSchema_written hdenotes (hmem (i := 0) rfl) (by decide) (by decide)
  have hstrings : jsonRequiredStringFields object ["vendor".toList, "brand".toList]
      "host_features" = .ok () ↔ failure.hostVendor ≠ [] ∧ failure.hostBrand ≠ [] := by
    have hfirst := requiredString_isSome hdenotes (hmem (i := 1) rfl) hvendor
    have hsecond := requiredString_isSome hdenotes (hmem (i := 2) rfl) hbrand
    simp only [jsonRequiredStringFields_eq_ok, List.forall_mem_cons, hfirst, hsecond]
    simp
  have hnumbers : jsonRequiredU64Fields object ["max_leaf".toList, "max_leaf7".toList,
      "max_extended_leaf".toList, "family".toList, "model".toList, "stepping".toList]
      "host_features" = .ok () := by
    simp only [jsonRequiredU64Fields_eq_ok, List.forall_mem_cons]
    exact ⟨requiredU32_isSome hdenotes (hmem (i := 3) rfl),
      requiredU32_isSome hdenotes (hmem (i := 4) rfl),
      requiredU32_isSome hdenotes (hmem (i := 5) rfl),
      requiredU32_isSome hdenotes (hmem (i := 6) rfl),
      requiredU32_isSome hdenotes (hmem (i := 7) rfl),
      requiredU32_isSome hdenotes (hmem (i := 8) rfl), by simp⟩
  have hfeatures : object.rawValue "features".toList =
      some (layout (line cr 6) (line cr 4) (featureMembers failure)) :=
    rawValue_eq hdenotes (hmem (i := 9) rfl)
  rw [jsonValidateHostFeaturesValue, hparse]
  simp only [ok_bind, bind_unit_eq_ok, hschema, hstrings, hnumbers, hfeatures,
    jsonValidateFeatures_written, and_true]

end Host

end Cpueaxh
