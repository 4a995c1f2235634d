/-
# Reading what is laid out

What the strict reader makes of an object that was laid out member by member: it records the
members when each value is one, and reports an error otherwise.
-/
import Cpueaxh.RecordLayout
import Cpueaxh.ReplayFile
import Cpueaxh.StrictJsonLaw

namespace Cpueaxh

open JsonGrammar

/-! ## Layouts of members -/

/-- Members with plain keys, none of them twice, and with values that are written. -/
structure LaidOut (members : List (Text × Text)) : Prop where
  plain : ∀ m ∈ members, ∀ c ∈ m.1, isPlain c = true
  nodup : (members.map Prod.fst).Nodup
  written : ∀ m ∈ members, WrittenValue m.2

section Layouts

variable {members : List (Text × Text)} {indent close b : Text}
  {requiredKeys optionalKeys : List Text} {allowUnknownKeys : Bool}

theorem written_layout (h : LaidOut members) (hne : members ≠ [])
    (hindent : ∀ c ∈ indent, isBlank c = true) (hclose : ∀ c ∈ close, isBlank c = true) :
    WrittenValue (layout indent close members) := by
  match members, hne with
  | first :: rest, _ => exact written_layoutObject hindent hclose h.plain h.nodup h.written

/-- **A layout is a value** exactly when the values in it are. -/
theorem readable_layout_iff (h : LaidOut members) (hne : members ≠ [])
    (hindent : ∀ c ∈ indent, isBlank c = true) (hclose : ∀ c ∈ close, isBlank c = true) :
    Readable (layout indent close members) ↔ ∀ m ∈ members, Readable m.2 := by
  have hwritten := written_layout h hne hindent hclose
  match members, hne with
  | first :: rest, _ =>
    constructor
    · intro hreadable m hm
      have hruns := runsFrom_layoutObject hindent hclose h.plain h.written []
      rw [List.append_nil, runsFrom, List.append_nil] at hruns
      · have hnil := hwritten.readable_iff.mp hreadable
        rw [layout_cons, hruns] at hnil
        rw [(h.written m hm).readable_iff]
        exact fun hmem => hnil (List.mem_flatMap.mpr ⟨m, hm, hmem⟩)
      · simp
    · exact readable_layoutObject hindent hclose h.plain h.nodup

theorem written_layoutItems {items : List Text} (hne : items ≠ [])
    (hindent : ∀ c ∈ indent, isBlank c = true) (hclose : ∀ c ∈ close, isBlank c = true)
    (hwritten : ∀ v ∈ items, WrittenValue v) : WrittenValue (layoutItems indent close items) := by
  match items, hne with
  | first :: rest, _ => exact written_layoutArray hindent hclose hwritten

/-- A layout of items is a value exactly when the items are. -/
theorem readable_layoutItems_iff {items : List Text} (hne : items ≠ [])
    (hindent : ∀ c ∈ indent, isBlank c = true) (hclose : ∀ c ∈ close, isBlank c = true)
    (hitems : ∀ v ∈ items, WrittenValue v) :
    Readable (layoutItems indent close items) ↔ ∀ v ∈ items, Readable v := by
  have hwritten := written_layoutItems hne hindent hclose hitems
  match items, hne with
  | first :: rest, _ =>
    constructor
    · intro hreadable v hv
      have hruns := runsFrom_layoutArray hindent hclose hitems []
      rw [List.append_nil, runsFrom, List.append_nil] at hruns
      · have hnil := hwritten.readable_iff.mp hreadable
        rw [layoutItems, hruns] at hnil
        rw [(hitems v hv).readable_iff]
        exact fun hmem => hnil (List.mem_flatMap.mpr ⟨v, hv, hmem⟩)
      · simp
    · exact readable_layoutArray hindent hclose

/-- **The reader records the members** of a layout whose values are values. -/
theorem parse_layout (h : LaidOut members) (hne : members ≠ [])
    (hindent : ∀ c ∈ indent, isBlank c = true) (hclose : ∀ c ∈ close, isBlank c = true)
    (hb : ∀ c ∈ b, isBlank c = true) (hvalues : ∀ m ∈ members, Readable m.2)
    (hkeys : KeysOk requiredKeys optionalKeys allowUnknownKeys members) :
    jsonParseTopLevelObject (layout indent close members ++ b) requiredKeys optionalKeys
      allowUnknownKeys = .ok (members.foldl StrictJsonObject.record .empty) := by
  match members, hne with
  | first :: rest, _ =>
    obtain ⟨scalars, hobject⟩ := objectText_layout hindent hclose hb h.plain hvalues
    exact jsonParseTopLevelObject_complete (.inl hobject) hkeys

/-- **The reader refuses** a layout with a value that is none. -/
theorem parse_layout_error (h : LaidOut members) (hne : members ≠ [])
    (hindent : ∀ c ∈ indent, isBlank c = true) (hclose : ∀ c ∈ close, isBlank c = true)
    (hb : ∀ c ∈ b, isBlank c = true) (hbad : ¬ ∀ m ∈ members, Readable m.2)
    (object : StrictJsonObject) :
    jsonParseTopLevelObject (layout indent close members ++ b) requiredKeys optionalKeys
      allowUnknownKeys ≠ .ok object := by
  match members, hne with
  | first :: rest, _ =>
    intro hparse
    obtain ⟨entries, scalars, -, -, htext⟩ := jsonParseTopLevelObject_sound hparse
    exact not_text_layout hindent hclose hb h.plain h.written hbad htext

end Layouts

/-! ## The values that are recorded -/

section Values

variable {object : StrictJsonObject} {members : List (Text × Text)} {key value : Text}

theorem requiredString_eq (h : object.Denotes members) (hmem : (key, quoted value) ∈ members)
    (hvalue : Writable value) :
    object.requiredString key = if value = [] then none else some value := by
  have htoken : StringToken (quoted value) value [] := by
    have htoken := stringToken_quoted hvalue []
    rwa [List.append_nil] at htoken
  rw [StrictJsonObject.requiredString, (h.string key value).mpr ⟨_, hmem, htoken⟩]
  cases value with
  | nil => rfl
  | cons c value => simp

theorem requiredU64_eq (h : object.Denotes members) {n : ℕ}
    (hmem : (key, decimalText n) ∈ members) (hn : n < 2 ^ 64) :
    object.requiredU64 key = some (BitVec.ofNat 64 n) := by
  have hvalue := decimalValue_decimalText n
  exact (h.unsigned key _).mpr ⟨_, hmem, isDigits_decimalText n, hvalue.symm ▸ hn, by rw [hvalue]⟩

theorem rawValue_eq (h : object.Denotes members) {raw : Text} (hmem : (key, raw) ∈ members) :
    object.rawValue key = some raw := (h.raw key raw).mpr hmem

theorem jsonRequiredStringFields_eq_ok {keys : List Text} {label : String} :
    jsonRequiredStringFields object keys label = .ok () ↔
      ∀ key ∈ keys, (object.requiredString key).isSome = true := by
  unfold jsonRequiredStringFields
  constructor
  · intro h
    split at h
    · cases h
    · next hfind => simpa [List.find?_eq_none, Option.isSome_iff_ne_none] using hfind
  · intro h
    have hfind : (keys.find? fun key => (object.requiredString key).isNone) = none := by
      simpa [List.find?_eq_none, Option.isSome_iff_ne_none] using h
    rw [hfind]

theorem jsonRequiredU64Fields_eq_ok {keys : List Text} {label : String} :
    jsonRequiredU64Fields object keys label = .ok () ↔
      ∀ key ∈ keys, (object.requiredU64 key).isSome = true := by
  unfold jsonRequiredU64Fields
  constructor
  · intro h
    split at h
    · cases h
    · next hfind => simpa [List.find?_eq_none, Option.isSome_iff_ne_none] using hfind
  · intro h
    have hfind : (keys.find? fun key => (object.requiredU64 key).isNone) = none := by
      simpa [List.find?_eq_none, Option.isSome_iff_ne_none] using h
    rw [hfind]

theorem jsonRequiredSchema_ok {schema : Text} {label : String}
    (h : object.requiredString "schema".toList = some schema) :
    jsonRequiredSchema object schema label = .ok () := by
  rw [jsonRequiredSchema, h]
  exact if_pos rfl

/-- A section whose members are those of the keys is parsed. -/
theorem parse_section (h : LaidOut members) (hne : members ≠ []) {indent close : Text}
    (hindent : ∀ c ∈ indent, isBlank c = true) (hclose : ∀ c ∈ close, isBlank c = true)
    (hvalues : ∀ m ∈ members, Readable m.2) (label : String) :
    jsonParseSection (layout indent close members) (keysOf members) label =
      .ok (members.foldl StrictJsonObject.record .empty) := by
  have hkeys : KeysOk (keysOf members) [] false members :=
    ⟨h.nodup, fun _ hk => .inr (.inl hk), fun _ hk => hk⟩
  have hparse := @parse_layout _ _ _ [] _ _ _ h hne hindent hclose (by simp) hvalues hkeys
  rw [List.append_nil] at hparse
  rw [jsonParseSection, hparse]
  rfl

end Values

end Cpueaxh
