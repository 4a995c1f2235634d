/-
# The record that the strict reader makes

The loop over the members of a record, against the grammar with loose scalars.  The loop
ends without an error in two ways: behind the closing brace, and where the text ends.  Both
come with the object that the members make.
-/
import Cpueaxh.StrictJsonReads

namespace Cpueaxh

open JsonGrammar

/-! ## Unsigned values -/

section UnsignedValues

variable {token : Text} {result value : U64}

/-- The digits pushed behind a number that is there. -/
def pushDigits (n : ℕ) (token : Text) : ℕ :=
  token.foldl (fun n c => 10 * n + (c.toNat - '0'.toNat)) n

theorem le_pushDigits (n : ℕ) (token : Text) : n ≤ pushDigits n token := by
  induction token generalizing n with
  | nil => exact Nat.le_refl n
  | cons c token ih =>
    exact Nat.le_trans (show n ≤ 10 * n + (c.toNat - '0'.toNat) by omega) (ih _)

theorem digit_lt {c : Char} (h : c.isDigit = true) : c.toNat - '0'.toNat < 10 := by
  simp only [Char.isDigit, Bool.and_eq_true, decide_eq_true_eq, UInt32.le_iff_toNat_le] at h
  have hlow : '0'.val.toNat = 48 := rfl
  have hhigh : '9'.val.toNat = 57 := rfl
  change c.val.toNat - 48 < 10
  omega

theorem isDigit_iff (c : Char) : c.isDigit = true ↔ ¬ (c < '0' ∨ '9' < c) := by
  simp only [Char.isDigit, Bool.and_eq_true, decide_eq_true_eq, Char.lt_def, not_or,
    UInt32.not_lt]

/-- The test of the loop is that one more digit does not overflow. -/
theorem u64_room {digit : ℕ} (hdigit : digit < 10) :
    (BitVec.allOnes 64 - BitVec.ofNat 64 digit) / 10 < result ↔
      2 ^ 64 ≤ 10 * result.toNat + digit := by
  have hsmall : (BitVec.ofNat 64 digit).toNat = digit := by
    rw [BitVec.toNat_ofNat]
    omega
  have hones : (BitVec.allOnes 64).toNat = 2 ^ 64 - 1 := BitVec.toNat_allOnes ..
  have hle : BitVec.ofNat 64 digit ≤ BitVec.allOnes 64 := by
    rw [BitVec.le_def, hsmall, hones]
    omega
  have hmask : (BitVec.allOnes 64 - BitVec.ofNat 64 digit).toNat = 2 ^ 64 - 1 - digit := by
    rw [BitVec.toNat_sub_of_le hle, hsmall, hones]
  have hresult := result.isLt
  have hten : (10 : U64).toNat = 10 := by decide
  rw [BitVec.lt_def, BitVec.toNat_udiv, hmask, hten]
  omega

theorem jsonU64Loop_cons (c : Char) (token : Text) :
    jsonU64Loop result (c :: token) =
      if c < '0' || '9' < c then none
      else if (BitVec.allOnes 64 - BitVec.ofNat 64 (c.toNat - '0'.toNat)) / 10 < result then none
      else jsonU64Loop (result * 10 + BitVec.ofNat 64 (c.toNat - '0'.toNat)) token := rfl

/-- **The loop over the digits** returns the number they make, when it has 64 bits. -/
theorem jsonU64Loop_eq_some :
    jsonU64Loop result token = some value ↔ (∀ c ∈ token, c.isDigit = true) ∧
      pushDigits result.toNat token < 2 ^ 64 ∧
      value = BitVec.ofNat 64 (pushDigits result.toNat token) := by
  induction token generalizing result with
  | nil =>
    have hself : BitVec.ofNat 64 result.toNat = result := BitVec.ofNat_toNat ..
    constructor
    · intro h
      have hvalue : result = value := Option.some.inj h
      exact ⟨by simp, result.isLt, hvalue ▸ hself.symm⟩
    · rintro ⟨-, -, rfl⟩
      exact congrArg some hself.symm
  | cons c token ih =>
    rw [jsonU64Loop_cons]
    by_cases hdigit : c.isDigit = true
    · have hlt := digit_lt hdigit
      have hrange : ¬ ((decide (c < '0') || decide ('9' < c)) = true) := by
        simpa using (isDigit_iff c).mp hdigit
      rw [if_neg hrange]
      by_cases hroom : 2 ^ 64 ≤ 10 * result.toNat + (c.toNat - '0'.toNat)
      · rw [if_pos ((u64_room hlt).mpr hroom)]
        have hmore := le_pushDigits (10 * result.toNat + (c.toNat - '0'.toNat)) token
        constructor
        · intro h
          cases h
        · rintro ⟨-, hlast, -⟩
          exact absurd (Nat.lt_of_le_of_lt (Nat.le_trans hroom hmore) hlast) (Nat.lt_irrefl _)
      · have hnext : (result * 10 + BitVec.ofNat 64 (c.toNat - '0'.toNat)).toNat =
            10 * result.toNat + (c.toNat - '0'.toNat) := by
          rw [BitVec.toNat_add, BitVec.toNat_mul, BitVec.toNat_ofNat,
            show (10 : U64).toNat = 10 by decide]
          omega
        rw [if_neg (fun h => hroom ((u64_room hlt).mp h)), ih, hnext]
        simp only [List.mem_cons, forall_eq_or_imp, hdigit, true_and]
        exact Iff.rfl
    · have hrange : (decide (c < '0') || decide ('9' < c)) = true := by
        have h := not_not.mp (mt (isDigit_iff c).mpr hdigit)
        simpa using h
      rw [if_pos hrange]
      constructor
      · intro h
        cases h
      · rintro ⟨hall, -⟩
        exact absurd (hall c (List.mem_cons_self ..)) hdigit

/-- **An unsigned token** is one digit or more, and denotes its decimal value. -/
theorem jsonParseU64Token_eq_some :
    jsonParseU64Token token = some value ↔ IsDigits token ∧ decimalValue token < 2 ^ 64 ∧
      value = BitVec.ofNat 64 (decimalValue token) := by
  unfold jsonParseU64Token
  by_cases hne : token = []
  · simp [hne, IsDigits]
  · rw [if_neg hne, jsonU64Loop_eq_some]
    exact ⟨fun ⟨hall, h⟩ => ⟨⟨hne, hall⟩, h⟩, fun ⟨⟨_, hall⟩, h⟩ => ⟨hall, h⟩⟩

end UnsignedValues

/-! ## One recorded value -/

/-- The object with a member recorded, whose value has the text `raw`. -/
def StrictJsonObject.record (object : StrictJsonObject) (member : Text × Text) :
    StrictJsonObject where
  stringValues :=
    match jsonParseStringToken member.2 with
    | .ok (value, []) => Function.update object.stringValues member.1 (some value)
    | _ => object.stringValues
  u64Values :=
    match jsonParseU64Token member.2 with
    | some u64 => Function.update object.u64Values member.1 (some u64)
    | none => object.u64Values
  rawValues := Function.update object.rawValues member.1 (some member.2)

section Recording

variable {object object' : StrictJsonObject} {key raw v s t : Text} {scalars : List Text}

theorem take_raw (raw t : Text) : (raw ++ t).take ((raw ++ t).length - t.length) = raw := by
  rw [List.length_append, Nat.add_sub_cancel]
  exact List.take_left' rfl

theorem not_digits_of_quote (rest : Text) : jsonParseU64Token ('"' :: rest) = none := by
  cases h : jsonParseU64Token ('"' :: rest) with
  | none => rfl
  | some value =>
    obtain ⟨⟨-, hall⟩, -⟩ := jsonParseU64Token_eq_some.mp h
    exact absurd (hall '"' (List.mem_cons_self ..)) (by decide)

theorem jsonParseStringToken_quote (h : jsonParseStringToken s = .ok (v, t)) :
    ∃ rest, s = '"' :: rest := by
  obtain ⟨-⟩ := jsonParseStringToken_eq_ok.mp h
  exact ⟨_, rfl⟩

theorem record_string (h : StringToken raw v []) :
    object.record (key, raw) =
      { object with
        stringValues := Function.update object.stringValues key (some v)
        rawValues := Function.update object.rawValues key (some raw) } := by
  have htoken := jsonParseStringToken_eq_ok.mpr h
  obtain ⟨rest, rfl⟩ := jsonParseStringToken_quote htoken
  simp only [StrictJsonObject.record, htoken, not_digits_of_quote]

theorem record_other (h : ∀ rest, raw = '"' :: rest → False) :
    object.record (key, raw) =
      { object with
        u64Values :=
          match jsonParseU64Token raw with
          | some u64 => Function.update object.u64Values key (some u64)
          | none => object.u64Values
        rawValues := Function.update object.rawValues key (some raw) } := by
  have hstring : (match jsonParseStringToken raw with
      | .ok (value, []) => Function.update object.stringValues key (some value)
      | _ => object.stringValues) = object.stringValues := by
    split
    · next value htoken =>
      obtain ⟨rest, hrest⟩ := jsonParseStringToken_quote htoken
      exact (h rest hrest).elim
    · rfl
  simp only [StrictJsonObject.record, hstring]

theorem jsonRecordValue_string (h : StringToken (raw ++ t) v t) (hraw : StringToken raw v []) :
    jsonRecordValue object key (raw ++ t) = .ok (object.record (key, raw), t) := by
  have htoken := jsonParseStringToken_eq_ok.mpr h
  obtain ⟨rest, hrest⟩ := jsonParseStringToken_quote htoken
  have htake := take_raw raw t
  rw [record_string hraw]
  rw [hrest] at htoken htake ⊢
  refine bind_eq_ok.mpr ⟨(_, t), bind_eq_ok.mpr ⟨(v, t), htoken, rfl⟩, ?_⟩
  dsimp only
  rw [htake]

theorem jsonRecordValue_other (h : ∀ rest, raw ++ t = '"' :: rest → False) (hne : raw ≠ [])
    (hskip : jsonSkipValueStrict (raw ++ t) = .ok t) :
    jsonRecordValue object key (raw ++ t) = .ok (object.record (key, raw), t) := by
  have hraw : ∀ rest, raw = '"' :: rest → False := by
    rintro rest rfl
    exact h _ rfl
  have htake := take_raw raw t
  have htyped : jsonRecordTyped object key (raw ++ t) =
      .ok (match jsonParseU64Token raw with
        | some u64 =>
          { object with u64Values := Function.update object.u64Values key (some u64) }
        | none => object, t) := by
    rw [jsonRecordTyped.eq_2 _ _ _ h, hskip]
    refine bind_eq_ok.mpr ⟨t, rfl, ?_⟩
    rw [htake]
    cases jsonParseU64Token raw <;> rfl
  rw [record_other hraw]
  refine bind_eq_ok.mpr ⟨_, htyped, ?_⟩
  dsimp only
  rw [htake]
  cases jsonParseU64Token raw <;> rfl

/-- **A value that is recorded** is a value of the grammar. -/
theorem jsonRecordValue_sound (hs : jsonSkipWs s = s)
    (h : jsonRecordValue object key s = .ok (object', t)) :
    ∃ raw scalars, s = raw ++ t ∧ Derives LooseScalar .value scalars (raw ++ t) t ∧
      object' = object.record (key, raw) := by
  by_cases hquote : ∃ rest, s = '"' :: rest
  · obtain ⟨rest, rfl⟩ := hquote
    obtain ⟨⟨typed, u⟩, htyped, hlast⟩ := bind_eq_ok.mp h
    obtain ⟨⟨v, u'⟩, htoken, htyped⟩ := bind_eq_ok.mp htyped
    have hrest : u' = t := by
      cases htyped
      cases hlast
      rfl
    subst hrest
    have hstring := jsonParseStringToken_eq_ok.mp htoken
    obtain ⟨raw, hraw, hany⟩ := hstring.exists_append
    have hself : StringToken raw v [] := by simpa using hany []
    rw [hraw] at h hstring ⊢
    have hrecord := @jsonRecordValue_string object key _ _ _ hstring hself
    have hobject := congrArg Prod.fst (Except.ok.inj (h.symm.trans hrecord))
    exact ⟨raw, [], rfl, .string hstring, hobject⟩
  · have hother : ∀ rest, s = '"' :: rest → False := fun rest hrest => hquote ⟨rest, hrest⟩
    obtain ⟨⟨typed, u⟩, htyped, hlast⟩ := bind_eq_ok.mp h
    rw [jsonRecordTyped.eq_2 _ _ _ hother] at htyped
    obtain ⟨rest, hskip, htyped⟩ := bind_eq_ok.mp htyped
    have hrest : rest = t := by
      cases hlast
      split at htyped <;> cases htyped <;> rfl
    subst hrest
    obtain ⟨scalars, s', hb, hvalue⟩ := (readsValues s.length).sound hskip
    obtain ⟨c, tail, hs', hc⟩ := value_starts hvalue
    have hsame : s = s' := by rw [← hs, jsonSkipWs_blanks hb, jsonSkipWs_starts hs' hc]
    subst hsame
    obtain ⟨raw, rfl⟩ := hvalue.suffix
    have hne : raw ≠ [] := by
      rintro rfl
      exact absurd (value_length hvalue) (Nat.lt_irrefl _)
    have hrecord := @jsonRecordValue_other object key _ _ hother hne hskip
    have hobject := congrArg Prod.fst (Except.ok.inj (h.symm.trans hrecord))
    exact ⟨raw, scalars, rfl, hvalue, hobject⟩

/-- **A value of the grammar is recorded.** -/
theorem jsonRecordValue_complete (h : Derives LooseScalar .value scalars (raw ++ t) t)
    (ht : Follow t) : jsonRecordValue object key (raw ++ t) = .ok (object.record (key, raw), t) := by
  by_cases hquote : ∃ rest, raw ++ t = '"' :: rest
  · obtain ⟨rest, hrest⟩ := hquote
    obtain ⟨v, hstring⟩ := string_of_value (hrest ▸ h)
    rw [← hrest] at hstring
    obtain ⟨raw', hraw, hany⟩ := hstring.exists_append
    cases List.append_cancel_right hraw
    exact jsonRecordValue_string hstring (by simpa using hany [])
  · have hne : raw ≠ [] := by
      rintro rfl
      exact absurd (value_length h) (Nat.lt_irrefl _)
    exact jsonRecordValue_other (fun rest hrest => hquote ⟨rest, hrest⟩) hne
      ((readsValues _).complete (Nat.le_refl _) .none h ht)

end Recording

/-! ## The loop over the members -/

/-- A key that the record may have. -/
def AllowedKey (requiredKeys optionalKeys : List Text) (allowUnknownKeys : Bool) (key : Text) :
    Prop :=
  allowUnknownKeys = true ∨ key ∈ requiredKeys ∨ key ∈ optionalKeys

section Members

variable {requiredKeys optionalKeys : List Text} {allowUnknownKeys : Bool}
  {object object' : StrictJsonObject} {seen seen' : List Text} {key raw : Text} {rounds : ℕ}
  {s s' s'' t u : Text} {scalars : List Text} {entries : List (Text × Text)}

theorem allowedKey_iff :
    AllowedKey requiredKeys optionalKeys allowUnknownKeys key ↔
      ¬ ((!allowUnknownKeys && !(decide (key ∈ requiredKeys) || decide (key ∈ optionalKeys))) =
        true) := by
  unfold AllowedKey
  cases allowUnknownKeys <;> simp [or_iff_not_imp_left]

/-- What the loop does behind a member that it has recorded. -/
def afterMember (requiredKeys optionalKeys : List Text) (allowUnknownKeys : Bool) (rounds : ℕ)
    (object : StrictJsonObject) (seen : List Text) (json : Text) :
    Except String (StrictJsonObject × List Text × Text) :=
  match jsonSkipWs json with
  | ',' :: json =>
    match jsonSkipWs json with
    | '}' :: _ => .error "trailing comma in JSON object"
    | json => jsonTopLevelLoop requiredKeys optionalKeys allowUnknownKeys rounds object seen json
  | '}' :: json => .ok (object, seen, json)
  | _ => .error "expected ',' or '\x7d' in JSON object"

/-- **One round over a member of the grammar** records it. -/
theorem jsonTopLevelLoop_member (hmember : Derives LooseScalar (.member key raw) scalars s t)
    (hseen : key ∉ seen) (hallowed : AllowedKey requiredKeys optionalKeys allowUnknownKeys key)
    (ht : Follow t) :
    jsonTopLevelLoop requiredKeys optionalKeys allowUnknownKeys (rounds + 1) object seen s =
      afterMember requiredKeys optionalKeys allowUnknownKeys rounds (object.record (key, raw))
        (key :: seen) t := by
  have hne : s = [] → False := by
    rintro rfl
    exact absurd (member_length hmember) (Nat.not_lt_zero _)
  cases hmember with
  | @member _ _ _ _ s' s'' _ hkey hb hb' hvalue =>
    obtain ⟨c, rest, hstart, hc⟩ := value_starts hvalue
    have hskip : jsonSkipWs s'' = raw ++ t := by
      rw [jsonSkipWs_blanks hb', jsonSkipWs_starts hstart hc]
    rw [jsonTopLevelLoop.eq_3 _ _ _ _ _ _ _ hne, jsonParseStringToken_eq_ok.mpr hkey]
    change (if _ then _ else _) = _
    rw [if_neg (allowedKey_iff.mp hallowed), if_neg hseen]
    simp only [jsonSkipWs_of_blanks hb rfl, hskip, jsonRecordValue_complete hvalue ht]
    rfl

/-- What a round accepts is a member of the grammar. -/
theorem jsonTopLevelLoop_round {out : StrictJsonObject × List Text × Text} (hne : s ≠ [])
    (h : jsonTopLevelLoop requiredKeys optionalKeys allowUnknownKeys (rounds + 1) object seen s =
      .ok out) :
    ∃ key raw scalars t, Derives LooseScalar (.member key raw) scalars s t ∧ key ∉ seen ∧
      AllowedKey requiredKeys optionalKeys allowUnknownKeys key ∧
      afterMember requiredKeys optionalKeys allowUnknownKeys rounds (object.record (key, raw))
        (key :: seen) t = .ok out := by
  rw [jsonTopLevelLoop.eq_3 _ _ _ _ _ _ _ hne, bind_eq_ok] at h
  obtain ⟨⟨key, s'⟩, hkey, h⟩ := h
  dsimp only at h
  split at h
  · cases h
  next hallowed =>
  split at h
  · cases h
  next hseen =>
  split at h
  · next s'' hcolon =>
    rw [bind_eq_ok] at h
    obtain ⟨⟨object', t⟩, hvalue, h⟩ := h
    obtain ⟨raw, scalars, hs, hderived, rfl⟩ :=
      jsonRecordValue_sound (jsonSkipWs_blanks (blanks_jsonSkipWs s'')).symm hvalue
    refine ⟨key, raw, scalars, t, ?_, hseen, allowedKey_iff.mpr hallowed, h⟩
    exact .member (jsonParseStringToken_eq_ok.mp hkey) (hcolon ▸ blanks_jsonSkipWs s')
      (hs ▸ blanks_jsonSkipWs s'') hderived
  · cases h

/-- The members are in the record and their keys are seen, and every key may be there. -/
structure Recorded (requiredKeys optionalKeys : List Text) (allowUnknownKeys : Bool)
    (entries : List (Text × Text)) (before after : StrictJsonObject × List Text) : Prop where
  fresh : FreshKeys before.2 entries
  allowed : ∀ key ∈ keysOf entries, AllowedKey requiredKeys optionalKeys allowUnknownKeys key
  object : after.1 = entries.foldl StrictJsonObject.record before.1
  seen : ∀ key, key ∈ after.2 ↔ key ∈ before.2 ∨ key ∈ keysOf entries

theorem Recorded.nil (before : StrictJsonObject × List Text) :
    Recorded requiredKeys optionalKeys allowUnknownKeys [] before before :=
  ⟨freshKeys_nil _, by simp [keysOf], rfl, by simp [keysOf]⟩

theorem Recorded.cons {after : StrictJsonObject × List Text} (hseen : key ∉ seen)
    (hallowed : AllowedKey requiredKeys optionalKeys allowUnknownKeys key)
    (h : Recorded requiredKeys optionalKeys allowUnknownKeys entries
      (object.record (key, raw), key :: seen) after) :
    Recorded requiredKeys optionalKeys allowUnknownKeys ((key, raw) :: entries) (object, seen)
      after := by
  obtain ⟨hfresh, hall, hobject, hafter⟩ := h
  refine ⟨freshKeys_cons.mpr ⟨hseen, hfresh⟩, ?_, hobject, ?_⟩
  · simp only [keysOf, List.map_cons, List.mem_cons, forall_eq_or_imp]
    exact ⟨hallowed, hall⟩
  · intro k
    rw [hafter]
    simp only [keysOf, List.map_cons, List.mem_cons]
    tauto

/-- **What the loop accepts**: members up to the closing brace, or members cut off behind a
comma. -/
theorem jsonTopLevelLoop_sound (hrounds : s.length ≤ rounds)
    (h : jsonTopLevelLoop requiredKeys optionalKeys allowUnknownKeys rounds object seen s =
      .ok (object', seen', t)) :
    ∃ entries scalars, Recorded requiredKeys optionalKeys allowUnknownKeys entries (object, seen)
        (object', seen') ∧
      (Derives LooseScalar (.members entries) scalars s t ∨
        OpenMembers LooseScalar scalars entries s ∧ t = []) := by
  induction rounds generalizing object seen s with
  | zero =>
    obtain rfl := List.length_eq_zero_iff.mp (Nat.le_zero.mp hrounds)
    cases h
    exact ⟨[], [], .nil _, .inr ⟨.none, rfl⟩⟩
  | succ rounds ih =>
    by_cases hne : s = []
    · subst hne
      cases h
      exact ⟨[], [], .nil _, .inr ⟨.none, rfl⟩⟩
    obtain ⟨key, raw, scalars, u, hmember, hseen, hallowed, h⟩ := jsonTopLevelLoop_round hne h
    have hlength := member_length hmember
    have hskip := blanks_jsonSkipWs u
    unfold afterMember at h
    split at h
    · next json hu =>
      have hskip' := blanks_jsonSkipWs json
      have hcomma := (hu ▸ hskip).suffix.length_le
      have hnext := hskip'.suffix.length_le
      simp only [List.length_cons] at hcomma
      split at h
      · cases h
      · obtain ⟨entries, scalars', hrecorded, hrest⟩ := ih (by omega) h
        refine ⟨_, scalars ++ scalars', hrecorded.cons hseen hallowed, ?_⟩
        rcases hrest with hclosed | ⟨hopen, rfl⟩
        · exact .inl (.moreMembers hmember (hu ▸ hskip) hskip' hclosed)
        · exact .inr ⟨.more hmember (hu ▸ hskip) hskip' hopen, rfl⟩
    · next json hu =>
      cases h
      exact ⟨_, scalars, (Recorded.nil _).cons hseen hallowed,
        .inl (.lastMember hmember (hu ▸ hskip))⟩
    · cases h

/-- Behind the closing brace the loop ends. -/
theorem afterMember_close (hb : Blanks s ('}' :: t)) :
    afterMember requiredKeys optionalKeys allowUnknownKeys rounds object seen s =
      .ok (object, seen, t) := by
  simp only [afterMember, jsonSkipWs_of_blanks hb rfl]

/-- Behind a comma the loop goes on, with a member or with nothing. -/
theorem afterMember_comma (hb : Blanks s (',' :: s'')) (hb' : Blanks s'' u)
    (hu : u = [] ∨ ∃ rest, u = '"' :: rest) :
    afterMember requiredKeys optionalKeys allowUnknownKeys rounds object seen s =
      jsonTopLevelLoop requiredKeys optionalKeys allowUnknownKeys rounds object seen u := by
  have hskip : jsonSkipWs s'' = u := by
    rw [jsonSkipWs_blanks hb']
    rcases hu with rfl | ⟨rest, rfl⟩ <;> rfl
  simp only [afterMember, jsonSkipWs_of_blanks hb rfl, hskip]
  rcases hu with rfl | ⟨rest, rfl⟩ <;> rfl

theorem jsonTopLevelLoop_closed {part : Part} (h : Derives LooseScalar part scalars s t)
    (hpart : part = .members entries) (hfresh : FreshKeys seen entries)
    (hallowed : ∀ key ∈ keysOf entries, AllowedKey requiredKeys optionalKeys allowUnknownKeys key)
    (hrounds : s.length ≤ rounds) :
    ∃ after, Recorded requiredKeys optionalKeys allowUnknownKeys entries (object, seen) after ∧
      jsonTopLevelLoop requiredKeys optionalKeys allowUnknownKeys rounds object seen s =
        .ok (after.1, after.2, t) := by
  induction h generalizing rounds object seen entries with
  | string | scalar | emptyArray | array | emptyObject | object | member | lastItem
  | item => cases hpart
  | @lastMember key raw scalars s s' t hmember hb =>
    cases hpart
    have hlength := member_length hmember
    obtain ⟨rounds, rfl⟩ := Nat.exists_eq_succ_of_ne_zero (show rounds ≠ 0 by omega)
    rw [freshKeys_cons] at hfresh
    have hkey := hallowed key (List.mem_cons_self ..)
    rw [jsonTopLevelLoop_member hmember hfresh.1 hkey (hb.follow rfl), afterMember_close hb]
    exact ⟨_, (Recorded.nil _).cons hfresh.1 hkey, rfl⟩
  | @moreMembers key raw entries' scalars scalars' s s' s'' u t hmember hb hb' hmembers _ ih =>
    cases hpart
    have hlength := member_length hmember
    have hcomma := hb.suffix.length_le
    have hnext := hb'.suffix.length_le
    simp only [List.length_cons] at hcomma
    obtain ⟨rounds, rfl⟩ := Nat.exists_eq_succ_of_ne_zero (show rounds ≠ 0 by omega)
    rw [freshKeys_cons] at hfresh
    have hkey := hallowed key (List.mem_cons_self ..)
    rw [jsonTopLevelLoop_member hmember hfresh.1 hkey (hb.follow rfl),
      afterMember_comma hb hb' (.inr (members_starts hmembers))]
    obtain ⟨after, hrecorded, hloop⟩ :=
      ih rfl hfresh.2 (fun k hk => hallowed k (List.mem_cons_of_mem _ hk))
        (show u.length ≤ rounds by omega)
    exact ⟨after, hrecorded.cons hfresh.1 hkey, hloop⟩

theorem openMembers_starts (h : OpenMembers LooseScalar scalars entries s) :
    s = [] ∨ ∃ rest, s = '"' :: rest := by
  cases h with
  | none => exact .inl rfl
  | more hmember => exact .inr (member_starts hmember)

theorem jsonTopLevelLoop_open (h : OpenMembers LooseScalar scalars entries s)
    (hfresh : FreshKeys seen entries)
    (hallowed : ∀ key ∈ keysOf entries, AllowedKey requiredKeys optionalKeys allowUnknownKeys key)
    (hrounds : s.length ≤ rounds) :
    ∃ after, Recorded requiredKeys optionalKeys allowUnknownKeys entries (object, seen) after ∧
      jsonTopLevelLoop requiredKeys optionalKeys allowUnknownKeys rounds object seen s =
        .ok (after.1, after.2, []) := by
  induction h generalizing rounds object seen with
  | none =>
    refine ⟨(object, seen), .nil _, ?_⟩
    cases rounds <;> rfl
  | @more key raw entries scalars scalars' s s' s'' u hmember hb hb' hopen ih =>
    have hlength := member_length hmember
    have hcomma := hb.suffix.length_le
    have hnext := hb'.suffix.length_le
    simp only [List.length_cons] at hcomma
    obtain ⟨rounds, rfl⟩ := Nat.exists_eq_succ_of_ne_zero (show rounds ≠ 0 by omega)
    rw [freshKeys_cons] at hfresh
    have hkey := hallowed key (List.mem_cons_self ..)
    rw [jsonTopLevelLoop_member hmember hfresh.1 hkey (hb.follow rfl),
      afterMember_comma hb hb' (openMembers_starts hopen)]
    obtain ⟨after, hrecorded, hloop⟩ :=
      ih hfresh.2 (fun k hk => hallowed k (List.mem_cons_of_mem _ hk))
        (show u.length ≤ rounds by omega)
    exact ⟨after, hrecorded.cons hfresh.1 hkey, hloop⟩

end Members

/-! ## The whole record -/

/-- The keys of a record: none is repeated, each may be there, and none is missing. -/
structure KeysOk (requiredKeys optionalKeys : List Text) (allowUnknownKeys : Bool)
    (entries : List (Text × Text)) : Prop where
  nodup : (keysOf entries).Nodup
  allowed : ∀ key ∈ keysOf entries, AllowedKey requiredKeys optionalKeys allowUnknownKeys key
  required : ∀ key ∈ requiredKeys, key ∈ keysOf entries

section Records

variable {requiredKeys optionalKeys : List Text} {allowUnknownKeys : Bool}
  {object : StrictJsonObject} {seen : List Text} {text s s' t : Text} {scalars : List Text}
  {entries : List (Text × Text)}

theorem jsonTopLevelEnd_eq_ok {object' : StrictJsonObject} :
    jsonTopLevelEnd requiredKeys object seen t = .ok object' ↔
      Blanks t [] ∧ (∀ key ∈ requiredKeys, key ∈ seen) ∧ object' = object := by
  unfold jsonTopLevelEnd
  constructor
  · intro h
    have hskip := blanks_jsonSkipWs t
    split at h
    · next ht =>
      split at h
      · cases h
      · next hfind =>
        cases h
        rw [ht] at hskip
        refine ⟨hskip, ?_, rfl⟩
        simpa [List.find?_eq_none] using hfind
    · cases h
  · rintro ⟨hb, hall, rfl⟩
    have hskip : jsonSkipWs t = [] := jsonSkipWs_blanks hb
    have hfind : (requiredKeys.find? fun key => !(key ∈ seen)) = none := by
      simpa [List.find?_eq_none] using hall
    simp only [hskip, hfind]

/-- **What the reader accepts** is an object of the grammar, or one that is cut off, and it
records the members. -/
theorem jsonParseTopLevelObject_sound
    (h : jsonParseTopLevelObject text requiredKeys optionalKeys allowUnknownKeys = .ok object) :
    ∃ entries scalars, KeysOk requiredKeys optionalKeys allowUnknownKeys entries ∧
      object = entries.foldl StrictJsonObject.record .empty ∧
      (ObjectText LooseScalar scalars entries text ∨ CutText LooseScalar scalars entries text) := by
  have hskip := blanks_jsonSkipWs text
  unfold jsonParseTopLevelObject at h
  split at h
  · next s hopen =>
    rw [hopen] at hskip
    have hskip' := blanks_jsonSkipWs s
    obtain ⟨⟨object', seen, json⟩, hmembers, h⟩ := bind_eq_ok.mp h
    obtain ⟨hend, hrequired, rfl⟩ := jsonTopLevelEnd_eq_ok.mp h
    unfold jsonTopLevelMembers at hmembers
    split at hmembers
    · next t hclose =>
      cases hmembers
      refine ⟨[], [], ⟨List.nodup_nil, by simp [keysOf], ?_⟩, rfl, .inl ?_⟩
      · intro key hkey
        exact absurd (hrequired key hkey) (by simp)
      · exact .empty hskip (hclose ▸ hskip') hend
    · obtain ⟨entries, scalars, hrecorded, hrest⟩ :=
        jsonTopLevelLoop_sound (Nat.le_refl _) hmembers
      have hkeys : ∀ key, key ∈ seen ↔ key ∈ keysOf entries := by
        intro key
        rw [hrecorded.seen key]
        simp
      refine ⟨entries, scalars, ⟨hrecorded.fresh.1, hrecorded.allowed, ?_⟩, hrecorded.object, ?_⟩
      · exact fun key hkey => (hkeys key).mp (hrequired key hkey)
      · rcases hrest with hclosed | ⟨hopen', -⟩
        · exact .inl (.members hskip hskip' hclosed hend)
        · exact .inr (.cut hskip hskip' hopen')
  · cases h

/-- Where the loop ends with nothing left, the record is accepted. -/
theorem jsonParseTopLevelObject_ends (hopen : Blanks text ('{' :: s)) (hb : Blanks s s')
    (hs' : s' = [] ∨ ∃ rest, s' = '"' :: rest) (hend : Blanks t [])
    (hkeys : KeysOk requiredKeys optionalKeys allowUnknownKeys entries)
    (hloop : ∃ after, Recorded requiredKeys optionalKeys allowUnknownKeys entries (.empty, []) after ∧
      jsonTopLevelLoop requiredKeys optionalKeys allowUnknownKeys s'.length .empty [] s' =
        .ok (after.1, after.2, t)) :
    jsonParseTopLevelObject text requiredKeys optionalKeys allowUnknownKeys =
      .ok (entries.foldl StrictJsonObject.record .empty) := by
  obtain ⟨after, hrecorded, hloop⟩ := hloop
  have hskip : jsonSkipWs s = s' := by
    rw [jsonSkipWs_blanks hb]
    rcases hs' with rfl | ⟨rest, rfl⟩ <;> rfl
  have hmembers : jsonTopLevelMembers requiredKeys optionalKeys allowUnknownKeys s =
      .ok (after.1, after.2, t) := by
    rw [← hloop]
    simp only [jsonTopLevelMembers, hskip]
    rcases hs' with rfl | ⟨rest, rfl⟩ <;> rfl
  unfold jsonParseTopLevelObject
  simp only [jsonSkipWs_of_blanks hopen rfl]
  refine bind_eq_ok.mpr ⟨_, hmembers, jsonTopLevelEnd_eq_ok.mpr ⟨hend, ?_, hrecorded.object.symm⟩⟩
  intro key hkey
  exact (hrecorded.seen key).mpr (.inr (hkeys.required key hkey))

/-- **The reader accepts** the objects of the grammar and those that are cut off. -/
theorem jsonParseTopLevelObject_complete
    (h : ObjectText LooseScalar scalars entries text ∨ CutText LooseScalar scalars entries text)
    (hkeys : KeysOk requiredKeys optionalKeys allowUnknownKeys entries) :
    jsonParseTopLevelObject text requiredKeys optionalKeys allowUnknownKeys =
      .ok (entries.foldl StrictJsonObject.record .empty) := by
  have hfresh : FreshKeys [] entries := ⟨hkeys.nodup, by simp⟩
  rcases h with hobject | hcut
  · cases hobject with
    | @empty _ s t hopen hclose hend =>
      have hskip := jsonSkipWs_of_blanks hclose rfl
      unfold jsonParseTopLevelObject
      simp only [jsonSkipWs_of_blanks hopen rfl]
      refine bind_eq_ok.mpr ⟨(.empty, [], t), ?_, ?_⟩
      · simp only [jsonTopLevelMembers, hskip]
      · exact jsonTopLevelEnd_eq_ok.mpr ⟨hend, fun key hkey => hkeys.required key hkey, rfl⟩
    | members hopen hb hmembers hend =>
      exact jsonParseTopLevelObject_ends hopen hb (.inr (members_starts hmembers)) hend hkeys
        (jsonTopLevelLoop_closed hmembers rfl hfresh hkeys.allowed (Nat.le_refl _))
  · obtain ⟨hopen, hb, hmembers⟩ := hcut
    exact jsonParseTopLevelObject_ends hopen hb (openMembers_starts hmembers) .none hkeys
      (jsonTopLevelLoop_open hmembers hfresh hkeys.allowed (Nat.le_refl _))

end Records

end Cpueaxh
