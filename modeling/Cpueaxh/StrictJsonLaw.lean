/-
# What the strict reader accepts

The reader is meant to accept one complete JSON object with the right keys.  It accepts two
kinds of texts besides: the loop over the members of the record ends without an error at the
end of the text, where the loops over nested members report an unterminated object; and a
scalar is taken for a number when its first character is a minus or a digit.

On every other text the reader accepts exactly the complete objects, and what it records is
what the tokens denote.
-/
import Cpueaxh.StrictJsonRecord

namespace Cpueaxh

open JsonGrammar

/-! ## What is recorded -/

/-- The values of the record are those that the tokens of the members denote. -/
structure StrictJsonObject.Denotes (object : StrictJsonObject) (entries : List (Text × Text)) :
    Prop where
  string : ∀ key value, object.stringValues key = some value ↔
    ∃ raw, (key, raw) ∈ entries ∧ StringToken raw value []
  unsigned : ∀ key value, object.u64Values key = some value ↔
    ∃ raw, (key, raw) ∈ entries ∧ IsDigits raw ∧ decimalValue raw < 2 ^ 64 ∧
      value = BitVec.ofNat 64 (decimalValue raw)
  raw : ∀ key raw, object.rawValues key = some raw ↔ (key, raw) ∈ entries

section Denotation

variable {β : Type} {values : StrictJsonObject → Text → Option β} {denoted : Text → Option β}
  {entries : List (Text × Text)}

/-- A map of the record in which each member puts what its text denotes. -/
def PutsDenoted (values : StrictJsonObject → Text → Option β) (denoted : Text → Option β) : Prop :=
  ∀ object key raw, values (object.record (key, raw)) =
    match denoted raw with
    | some value => Function.update (values object) key (some value)
    | none => values object

/-- **With no key twice** each key has what its own member denotes. -/
theorem record_values (hputs : PutsDenoted values denoted)
    (hempty : ∀ key, values .empty key = none) (hnodup : (keysOf entries).Nodup) (key : Text)
    (value : β) :
    values (entries.foldl StrictJsonObject.record .empty) key = some value ↔
      ∃ raw, (key, raw) ∈ entries ∧ denoted raw = some value := by
  induction entries using List.reverseRecOn generalizing value with
  | nil => simp [hempty]
  | append_singleton entries member ih =>
    obtain ⟨key', raw'⟩ := member
    simp only [keysOf, List.map_append, List.map_cons, List.map_nil, List.nodup_append,
      List.mem_singleton] at hnodup ih
    obtain ⟨hinit, -, hnew⟩ := hnodup
    rw [List.foldl_append, List.foldl_cons, List.foldl_nil, hputs _ key' raw']
    by_cases hkey : key = key'
    · subst hkey
      -- no earlier member has the key of the last one
      have hfirst : ∀ raw, (key, raw) ∉ entries := fun raw hmem =>
        hnew key (List.mem_map.mpr ⟨_, hmem, rfl⟩) key rfl rfl
      have hnone : values (entries.foldl StrictJsonObject.record .empty) key = none := by
        rw [Option.eq_none_iff_forall_ne_some]
        intro v hv
        obtain ⟨raw, hmem, -⟩ := (ih hinit v).mp hv
        exact hfirst raw hmem
      cases hdenoted : denoted raw' with
      | none => simp [hnone, hfirst, hdenoted]
      | some v => simp [hfirst, hdenoted]
    · have hold : (match denoted raw' with
          | some v => Function.update (values (entries.foldl StrictJsonObject.record .empty)) key'
              (some v)
          | none => values (entries.foldl StrictJsonObject.record .empty)) key =
          values (entries.foldl StrictJsonObject.record .empty) key := by
        cases denoted raw' with
        | some v => exact Function.update_of_ne hkey ..
        | none => rfl
      rw [hold, ih hinit value]
      simp [hkey]

end Denotation

/-- The string that a text denotes by itself. -/
def stringDenoted (raw : Text) : Option Text :=
  match jsonParseStringToken raw with
  | .ok (value, []) => some value
  | _ => none

theorem stringDenoted_eq_some {raw value : Text} :
    stringDenoted raw = some value ↔ StringToken raw value [] := by
  rw [← jsonParseStringToken_eq_ok]
  unfold stringDenoted
  constructor
  · intro h
    split at h
    · next htoken =>
      cases h
      exact htoken
    · cases h
  · intro h
    rw [h]

/-- **What the members record** is what their tokens denote. -/
theorem denotes_record {entries : List (Text × Text)} (hnodup : (keysOf entries).Nodup) :
    (entries.foldl StrictJsonObject.record .empty).Denotes entries := by
  constructor
  · intro key value
    have hputs : PutsDenoted StrictJsonObject.stringValues stringDenoted := by
      intro object key raw
      unfold StrictJsonObject.record stringDenoted
      rcases jsonParseStringToken raw with _ | ⟨v, _ | _⟩ <;> rfl
    rw [record_values hputs (fun _ => rfl) hnodup]
    simp only [stringDenoted_eq_some]
  · intro key value
    have hputs : PutsDenoted StrictJsonObject.u64Values jsonParseU64Token := by
      intro object key raw
      unfold StrictJsonObject.record
      cases jsonParseU64Token raw <;> rfl
    rw [record_values hputs (fun _ => rfl) hnodup]
    simp only [jsonParseU64Token_eq_some]
  · intro key raw
    have hputs : PutsDenoted StrictJsonObject.rawValues some := fun _ _ _ => rfl
    rw [record_values hputs (fun _ => rfl) hnodup]
    simp

/-! ## What is accepted -/

section Accepted

variable (text : Text) (requiredKeys optionalKeys : List Text) (allowUnknownKeys : Bool)

/-- One complete JSON object whose keys are those of the record. -/
def StrictRecord (entries : List (Text × Text)) : Prop :=
  (∃ scalars, ObjectText StrictScalar scalars entries text) ∧
    KeysOk requiredKeys optionalKeys allowUnknownKeys entries

/-- The reader accepts a text when it is one complete object with the right keys, and not
otherwise; and then it has recorded what the tokens denote. -/
def AcceptsExactly : Prop :=
  ((∃ object, jsonParseTopLevelObject text requiredKeys optionalKeys allowUnknownKeys =
      .ok object) ↔
    ∃ entries, StrictRecord text requiredKeys optionalKeys allowUnknownKeys entries) ∧
  ∀ object, jsonParseTopLevelObject text requiredKeys optionalKeys allowUnknownKeys = .ok object →
    ∃ entries, StrictRecord text requiredKeys optionalKeys allowUnknownKeys entries ∧
      object.Denotes entries

/-- The text stops behind the opening brace or behind a comma between members. -/
def StopsOpen : Prop :=
  ∃ scalars entries, CutText LooseScalar scalars entries text ∧
    KeysOk requiredKeys optionalKeys allowUnknownKeys entries

/-- A token starts as a number does and is not one; else the text is a complete object. -/
def HasBadNumber : Prop :=
  ∃ scalars entries, ObjectText LooseScalar scalars entries text ∧
    KeysOk requiredKeys optionalKeys allowUnknownKeys entries ∧
    ∃ token ∈ scalars, ¬ StrictScalar token

variable {text requiredKeys optionalKeys allowUnknownKeys}

theorem strictRecord_accepted {entries : List (Text × Text)}
    (h : StrictRecord text requiredKeys optionalKeys allowUnknownKeys entries) :
    jsonParseTopLevelObject text requiredKeys optionalKeys allowUnknownKeys =
      .ok (entries.foldl StrictJsonObject.record .empty) := by
  obtain ⟨⟨scalars, hobject⟩, hkeys⟩ := h
  have hloose := hobject.mono fun w hw => (hobject.scalars_mem w hw).loose
  exact jsonParseTopLevelObject_complete (.inl hloose) hkeys

/-- A text that stops open is accepted, and it is no complete object. -/
theorem not_acceptsExactly_of_stopsOpen
    (h : StopsOpen text requiredKeys optionalKeys allowUnknownKeys) :
    ¬ AcceptsExactly text requiredKeys optionalKeys allowUnknownKeys := by
  obtain ⟨scalars, entries, hcut, hkeys⟩ := h
  rintro ⟨haccepts, -⟩
  obtain ⟨entries', ⟨scalars', hobject⟩, -⟩ :=
    haccepts.mp ⟨_, jsonParseTopLevelObject_complete (.inr hcut) hkeys⟩
  exact hcut.not_objectText hobject

/-- A text with a bad number is accepted, and it is no object of JSON. -/
theorem not_acceptsExactly_of_hasBadNumber
    (h : HasBadNumber text requiredKeys optionalKeys allowUnknownKeys) :
    ¬ AcceptsExactly text requiredKeys optionalKeys allowUnknownKeys := by
  obtain ⟨scalars, entries, hobject, hkeys, token, htoken, hbad⟩ := h
  rintro ⟨haccepts, -⟩
  obtain ⟨entries', ⟨scalars', hstrict⟩, -⟩ :=
    haccepts.mp ⟨_, jsonParseTopLevelObject_complete (.inl hobject) hkeys⟩
  have hloose := hstrict.mono fun w hw => (hstrict.scalars_mem w hw).loose
  have hsame := hobject.scalars_unique runs_looseScalar hloose
  exact hbad (hstrict.scalars_mem token (hsame ▸ htoken))

/-- **The strict reader accepts exactly its grammar** on the texts that do not stop open and
have no bad number, and on no others. -/
theorem acceptsExactly_iff (text : Text) (requiredKeys optionalKeys : List Text)
    (allowUnknownKeys : Bool) :
    AcceptsExactly text requiredKeys optionalKeys allowUnknownKeys ↔
      ¬ StopsOpen text requiredKeys optionalKeys allowUnknownKeys ∧
        ¬ HasBadNumber text requiredKeys optionalKeys allowUnknownKeys := by
  constructor
  · intro h
    exact ⟨fun hopen => not_acceptsExactly_of_stopsOpen hopen h,
      fun hbad => not_acceptsExactly_of_hasBadNumber hbad h⟩
  · rintro ⟨hopen, hbad⟩
    have hread : ∀ object,
        jsonParseTopLevelObject text requiredKeys optionalKeys allowUnknownKeys = .ok object →
        ∃ entries, StrictRecord text requiredKeys optionalKeys allowUnknownKeys entries ∧
          object.Denotes entries := by
      intro object h
      obtain ⟨entries, scalars, hkeys, rfl, hobject | hcut⟩ := jsonParseTopLevelObject_sound h
      · -- with no bad number the loose object is one of JSON
        have hstrict : ∀ w ∈ scalars, StrictScalar w := by
          intro w hw
          by_contra hnot
          exact hbad ⟨scalars, entries, hobject, hkeys, w, hw, hnot⟩
        exact ⟨entries, ⟨⟨scalars, hobject.mono hstrict⟩, hkeys⟩, denotes_record hkeys.nodup⟩
      · exact (hopen ⟨scalars, entries, hcut, hkeys⟩).elim
    refine ⟨⟨?_, ?_⟩, hread⟩
    · rintro ⟨object, h⟩
      obtain ⟨entries, hstrict, -⟩ := hread object h
      exact ⟨entries, hstrict⟩
    · rintro ⟨entries, hstrict⟩
      exact ⟨_, strictRecord_accepted hstrict⟩

/-- A record that ends behind the comma of its one member, with no closing brace, is
accepted. -/
theorem accepts_open_record :
    ¬ AcceptsExactly ['{', '"', 'a', '"', ':', '0', ','] [['a']] [] false := by
  have hkey : StringToken ['"', 'a', '"', ':', '0', ','] ['a'] [':', '0', ','] :=
    .quote (.plain (by decide) (by decide) (by decide) .close)
  have hvalue : Derives LooseScalar .value [['0']] ['0', ','] [','] :=
    .scalar ⟨clear_of_any (by decide), .inr ⟨'0', [], rfl, rfl⟩⟩
  have hmember : Derives LooseScalar (.member ['a'] ['0']) [['0']]
      ['"', 'a', '"', ':', '0', ','] [','] := .member hkey .none .none hvalue
  have hcut : CutText LooseScalar [['0']] [(['a'], ['0'])]
      ['{', '"', 'a', '"', ':', '0', ','] := .cut .none .none (.more hmember .none .none .none)
  exact not_acceptsExactly_of_stopsOpen
    ⟨_, _, hcut, by decide, by simp [AllowedKey, keysOf], by decide⟩

end Accepted

end Cpueaxh
