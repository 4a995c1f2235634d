/-
# The strict reader reads the grammar

What the loops of the reader accept, against the grammar with loose scalars.  Each loop is
compared with the grammar for any reader of values that is itself right on the texts it is
given; the reader of values then follows by induction on the depth.
-/
import Cpueaxh.StrictJson

namespace Cpueaxh

open JsonGrammar

/-! ## Blanks and strings -/

section Tokens

variable {s t u v value : Text} {c : Char}

/-- One step of `>>=` that ends well. -/
theorem bind_eq_ok {ε α β : Type} {x : Except ε α} {f : α → Except ε β} {b : β} :
    x >>= f = .ok b ↔ ∃ a, x = .ok a ∧ f a = .ok b := by
  cases x with
  | error e =>
    constructor
    · intro h
      cases h
    · rintro ⟨_, h, _⟩
      cases h
  | ok a =>
    constructor
    · intro h
      exact ⟨a, rfl, h⟩
    · rintro ⟨_, h, hf⟩
      cases h
      exact hf

theorem jsonSkipWs_cons (c : Char) (s : Text) :
    jsonSkipWs (c :: s) = if isBlank c then jsonSkipWs s else c :: s := rfl

theorem blanks_jsonSkipWs (s : Text) : Blanks s (jsonSkipWs s) := by
  induction s with
  | nil => exact .none
  | cons c s ih =>
    rw [jsonSkipWs_cons]
    split
    · next hc => exact .more hc ih
    · exact .none

/-- Blanks that were passed already make no difference. -/
theorem jsonSkipWs_blanks (h : Blanks s t) : jsonSkipWs s = jsonSkipWs t := by
  induction h with
  | none => rfl
  | more hc _ ih => rw [jsonSkipWs_cons, if_pos hc, ih]

theorem jsonSkipWs_of_blanks (h : Blanks s (c :: t)) (hc : isBlank c = false) :
    jsonSkipWs s = c :: t := by
  rw [jsonSkipWs_blanks h, jsonSkipWs_cons, if_neg (by simp [hc])]

theorem length_jsonSkipWs (s : Text) : (jsonSkipWs s).length ≤ s.length :=
  (blanks_jsonSkipWs s).suffix.length_le

theorem jsonUnescape_eq (e : Char) : jsonUnescape e = escaped e := by
  unfold jsonUnescape escaped
  split_ifs with h₁ h₂ h₃ h₄ h₅ h₆ h₇ h₈
  all_goals first
    | (subst_vars; rfl)
    | (split <;> first | rfl | contradiction)

theorem jsonStringLoop_quote (value s : Text) : jsonStringLoop value ('"' :: s) = .ok (value, s) := by
  rw [jsonStringLoop.eq_def]
  rfl

theorem jsonStringLoop_escape {e : Char} (he : escaped e = some c) (value s : Text) :
    jsonStringLoop value ('\\' :: e :: s) = jsonStringLoop (value ++ [c]) s := by
  rw [jsonStringLoop.eq_def]
  simp [jsonUnescape_eq, he]

theorem jsonStringLoop_plain (hq : c ≠ '"') (hb : c ≠ '\\') (value s : Text) :
    jsonStringLoop value (c :: s) =
      if c.toNat < 0x20 then .error "control character in JSON string"
      else jsonStringLoop (value ++ [c]) s := by
  rw [jsonStringLoop.eq_def]
  simp [hq, hb]

/-- **The loop over the characters of a string** pushes what the string denotes. -/
theorem jsonStringLoop_eq_ok :
    jsonStringLoop value s = .ok (u, t) ↔ ∃ v, u = value ++ v ∧ StringBody s v t := by
  constructor
  · intro h
    fun_induction jsonStringLoop value s with
    | case1 | case3 | case5 | case6 => cases h
    | case2 value json =>
      cases h
      exact ⟨[], (List.append_nil _).symm, .close⟩
    | case4 value esc json c hesc _ ih =>
      obtain ⟨v, rfl, hv⟩ := ih h
      exact ⟨c :: v, by simp, .escape (jsonUnescape_eq esc ▸ hesc) hv⟩
    | case7 value ch json hq hb hc ih =>
      obtain ⟨v, rfl, hv⟩ := ih h
      exact ⟨ch :: v, by simp, .plain hq hb (Nat.not_lt.mp hc) hv⟩
  · rintro ⟨v, rfl, hv⟩
    induction hv generalizing value with
    | close => rw [jsonStringLoop_quote, List.append_nil]
    | plain hq hb hc _ ih =>
      rw [jsonStringLoop_plain hq hb, if_neg (Nat.not_lt.mpr hc), ih, List.append_assoc,
        List.singleton_append]
    | escape he _ ih =>
      rw [jsonStringLoop_escape he, ih, List.append_assoc, List.singleton_append]

/-- **A string token** is read as the value that it denotes. -/
theorem jsonParseStringToken_eq_ok : jsonParseStringToken s = .ok (v, t) ↔ StringToken s v t := by
  constructor
  · intro h
    match s with
    | '"' :: s =>
      obtain ⟨v', rfl, hv⟩ := jsonStringLoop_eq_ok.mp h
      exact .quote hv
    | [] => cases h
    | c :: s =>
      unfold jsonParseStringToken at h
      split at h
      · next hs =>
        cases hs
        obtain ⟨v', rfl, hv⟩ := jsonStringLoop_eq_ok.mp h
        exact .quote hv
      · cases h
  · rintro ⟨hbody⟩
    exact jsonStringLoop_eq_ok.mpr ⟨v, rfl, hbody⟩

end Tokens

/-! ## Scalars -/

section Scalars

variable {s t w : Text}

theorem jsonScalarEnd_eq (c : Char) : jsonScalarEnd c = isDelimiter c := by
  simp [jsonScalarEnd, isDelimiter, isBlank, Bool.or_assoc]

theorem takeWhile_run (hclear : ∀ c ∈ w, isDelimiter c = false) (ht : Follow t) :
    ((w ++ t).takeWhile fun c => !jsonScalarEnd c) = w ∧
      ((w ++ t).dropWhile fun c => !jsonScalarEnd c) = t := by
  have hw : ∀ c ∈ w, (!jsonScalarEnd c) = true := by
    intro c hc
    rw [jsonScalarEnd_eq, hclear c hc]
    rfl
  rw [List.takeWhile_append_of_pos hw, List.dropWhile_append_of_pos hw]
  match t, ht with
  | [], _ => simp
  | c :: t, ht =>
    have hc : (!jsonScalarEnd c) = false := by
      rw [jsonScalarEnd_eq, ht c t rfl]
      rfl
    simp [hc]

/-- What a scalar is, as the code tests it. -/
theorem looseScalar_iff {c : Char} {rest : Text}
    (hclear : ∀ d ∈ c :: rest, isDelimiter d = false) :
    LooseScalar (c :: rest) ↔ (c :: rest = "true".toList ∨ c :: rest = "false".toList ∨
      c :: rest = "null".toList) ∨ (c = '-' ∨ '0' ≤ c ∧ c ≤ '9') := by
  have hdigit : isNumberStart c = true ↔ (c = '-' ∨ '0' ≤ c ∧ c ≤ '9') := by
    simp [isNumberStart, Char.isDigit, Char.le_def]
  constructor
  · rintro ⟨-, hliteral | ⟨_, _, heq, hc⟩⟩
    · exact .inl hliteral
    · cases heq
      exact .inr (hdigit.mp hc)
  · rintro (hliteral | hc)
    · exact ⟨hclear, .inl hliteral⟩
    · exact ⟨hclear, .inr ⟨c, rest, rfl, hdigit.mpr hc⟩⟩

theorem jsonParseScalar_eq (hclear : ∀ c ∈ w, isDelimiter c = false) (hne : w ≠ [])
    (ht : Follow t) [Decidable (LooseScalar w)] :
    jsonParseScalar (w ++ t) =
      if LooseScalar w then .ok t else .error "invalid JSON scalar" := by
  obtain ⟨c, rest, rfl⟩ := List.exists_cons_of_ne_nil hne
  obtain ⟨htake, hdrop⟩ := takeWhile_run hclear ht
  unfold jsonParseScalar
  simp only [htake, hdrop]
  by_cases hloose : LooseScalar (c :: rest)
  · rw [if_pos hloose]
    split
    · rfl
    · next hliteral =>
      rcases (looseScalar_iff hclear).mp hloose with h | h
      · simp only [Bool.or_eq_true, decide_eq_true_eq, not_or] at hliteral
        exact absurd h (by tauto)
      · rw [if_pos (by simpa using h)]
  · rw [if_neg hloose]
    have hnot := fun h => hloose ((looseScalar_iff hclear).mpr h)
    rw [if_neg (by simp only [Bool.or_eq_true, decide_eq_true_eq]; tauto), if_neg]
    intro h
    exact hnot (.inr (by simpa using h))

theorem follow_dropWhile (s : Text) : Follow (s.dropWhile fun c => !jsonScalarEnd c) := by
  intro c rest h
  have hhead := List.head?_dropWhile_not (fun c => !jsonScalarEnd c) s
  rw [h] at hhead
  simpa [jsonScalarEnd_eq] using hhead

/-- **A scalar that is read** is a loose scalar up to a delimiter. -/
theorem jsonParseScalar_sound (h : jsonParseScalar s = .ok t) :
    ∃ w, s = w ++ t ∧ LooseScalar w ∧ Follow t := by
  classical
  have hsplit := @List.takeWhile_append_dropWhile _ (fun c => !jsonScalarEnd c) s
  have hclear : ∀ c ∈ s.takeWhile fun c => !jsonScalarEnd c, isDelimiter c = false := by
    intro c hc
    have hrun := List.all_eq_true.mp List.all_takeWhile c hc
    rwa [jsonScalarEnd_eq, Bool.not_eq_true'] at hrun
  have hfollow := follow_dropWhile s
  generalize s.takeWhile (fun c => !jsonScalarEnd c) = w at hsplit hclear
  generalize s.dropWhile (fun c => !jsonScalarEnd c) = t' at hsplit hfollow
  subst hsplit
  by_cases hne : w = []
  · subst hne
    obtain ⟨htake, -⟩ := takeWhile_run (w := []) (by simp) hfollow
    unfold jsonParseScalar at h
    simp only [htake] at h
    cases h
  rw [jsonParseScalar_eq hclear hne hfollow] at h
  split at h
  · next hloose =>
    cases h
    exact ⟨w, rfl, hloose, hfollow⟩
  · cases h

theorem jsonParseScalar_complete (hw : LooseScalar w) (ht : Follow t) :
    jsonParseScalar (w ++ t) = .ok t := by
  classical
  obtain ⟨-, c, rest, rfl, -⟩ := runs_looseScalar w hw
  rw [jsonParseScalar_eq hw.1 (by simp) ht, if_pos hw]

end Scalars

/-! ## Values, arrays and objects -/

/-- A reader of values that is right on the texts of `n` characters. -/
structure ReadsValues (parseValue : Text → Except String Text) (n : ℕ) : Prop where
  sound : ∀ {s t : Text}, parseValue s = .ok t →
    ∃ scalars s', Blanks s s' ∧ Derives LooseScalar .value scalars s' t
  complete : ∀ {s s' t : Text} {scalars : List Text}, s.length ≤ n → Blanks s s' →
    Derives LooseScalar .value scalars s' t → Follow t → parseValue s = .ok t

section Loops

variable {parseValue : Text → Except String Text} {n rounds : ℕ} {s t : Text}
  {scalars : List Text} {entries : List (Text × Text)}

/-- A value takes a character. -/
theorem value_length (h : Derives LooseScalar .value scalars s t) : t.length < s.length := by
  cases h with
  | string htoken =>
    obtain ⟨hbody⟩ := htoken
    obtain ⟨raw, rfl, -⟩ := hbody.exists_append
    simp only [List.length_cons, List.length_append]
    omega
  | scalar hw =>
    obtain ⟨-, c, rest, rfl, -⟩ := runs_looseScalar _ hw
    simp only [List.length_append, List.length_cons]
    omega
  | emptyArray hb | emptyObject hb =>
    have hlength := hb.suffix.length_le
    simp only [List.length_cons] at hlength ⊢
    omega
  | array hb hitems =>
    have hlength := (hitems.suffix.trans hb.suffix).length_le
    exact Nat.lt_succ_of_le hlength
  | object hb _ hmembers =>
    have hlength := (hmembers.suffix.trans hb.suffix).length_le
    exact Nat.lt_succ_of_le hlength

/-- A member takes a character. -/
theorem member_length {key raw : Text} (h : Derives LooseScalar (.member key raw) scalars s t) :
    t.length < s.length := by
  cases h with
  | member hkey hb hb' hvalue =>
    obtain ⟨k, rfl, -⟩ := hkey.exists_append
    have h₁ := hb.suffix.length_le
    have h₂ := (hvalue.suffix.trans hb'.suffix).length_le
    simp only [List.length_cons, List.length_append] at *
    omega

/-! ### Arrays -/

theorem jsonArrayLoop_sound (hreads : ReadsValues parseValue n)
    (h : jsonArrayLoop parseValue rounds s = .ok t) :
    ∃ scalars s', Blanks s s' ∧ Derives LooseScalar .items scalars s' t := by
  induction rounds generalizing s with
  | zero => cases h
  | succ rounds ih =>
    match s with
    | [] => cases h
    | c :: s =>
      rw [jsonArrayLoop.eq_3 _ _ _ (by simp), bind_eq_ok] at h
      obtain ⟨rest, hvalue, h⟩ := h
      obtain ⟨scalars, s', hb, hvalue⟩ := hreads.sound hvalue
      have hskip := blanks_jsonSkipWs rest
      split at h
      · next json hrest =>
        have hskip' := blanks_jsonSkipWs json
        split at h
        · cases h
        · obtain ⟨scalars', u, hb', hitems⟩ := ih h
          exact ⟨_, s', hb, .item hvalue (hrest ▸ hskip) (hskip'.trans hb') hitems⟩
      · next json hrest =>
        cases h
        exact ⟨scalars, s', hb, .lastItem hvalue (hrest ▸ hskip)⟩
      · cases h

theorem value_starts (h : Derives LooseScalar .value scalars s t) :
    ∃ c rest, s = c :: rest ∧ isDelimiter c = false := by
  cases h with
  | string htoken =>
    obtain ⟨-⟩ := htoken
    exact ⟨_, _, rfl, rfl⟩
  | scalar hw =>
    obtain ⟨hclear, c, rest, rfl, -⟩ := runs_looseScalar _ hw
    exact ⟨c, _, rfl, hclear c (List.mem_cons_self ..)⟩
  | emptyArray | array | emptyObject | object => exact ⟨_, _, rfl, rfl⟩

theorem items_starts (h : Derives LooseScalar .items scalars s t) :
    ∃ c rest, s = c :: rest ∧ isDelimiter c = false := by
  cases h with
  | lastItem hvalue | item hvalue => exact value_starts hvalue

theorem jsonSkipWs_starts {c : Char} (hs : s = c :: t) (hc : isDelimiter c = false) :
    jsonSkipWs s = s := by
  have hblank : isBlank c = false := by
    simp only [isDelimiter, Bool.or_eq_false_iff] at hc
    exact hc.2
  rw [hs, jsonSkipWs_cons, if_neg (by simp [hblank])]

theorem jsonArrayLoop_complete (hreads : ReadsValues parseValue n) {part : Part}
    (h : Derives LooseScalar part scalars s t) (hpart : part = .items) (hn : s.length ≤ n)
    (hrounds : s.length ≤ rounds) : jsonArrayLoop parseValue rounds s = .ok t := by
  induction h generalizing rounds with
  | string | scalar | emptyArray | array | emptyObject | object | member | lastMember
  | moreMembers => cases hpart
  | @lastItem scalars s s' t hvalue hb =>
    have hlength := value_length hvalue
    obtain ⟨rounds, rfl⟩ := Nat.exists_eq_succ_of_ne_zero (show rounds ≠ 0 by omega)
    rw [jsonArrayLoop.eq_3 _ _ _ (by rintro rfl; simp at hlength), bind_eq_ok]
    refine ⟨s', hreads.complete hn .none hvalue (hb.follow rfl), ?_⟩
    simp only [jsonSkipWs_of_blanks hb rfl]
  | @item scalars scalars' s s' s'' u t hvalue hb hb' hitems _ ih =>
    have hlength := value_length hvalue
    have hcomma := hb.suffix.length_le
    have hnext := hb'.suffix.length_le
    simp only [List.length_cons] at hcomma
    obtain ⟨rounds, rfl⟩ := Nat.exists_eq_succ_of_ne_zero (show rounds ≠ 0 by omega)
    rw [jsonArrayLoop.eq_3 _ _ _ (by rintro rfl; simp at hlength), bind_eq_ok]
    refine ⟨s', hreads.complete hn .none hvalue (hb.follow rfl), ?_⟩
    -- the next item starts behind the blanks, and not with the closing bracket
    obtain ⟨c, rest, hu, hc⟩ := items_starts hitems
    have hskip : jsonSkipWs s'' = c :: rest := by
      rw [jsonSkipWs_blanks hb', jsonSkipWs_starts hu hc, hu]
    have hclose : c ≠ ']' := by
      rintro rfl
      cases hc
    simp only [jsonSkipWs_of_blanks hb rfl, hskip]
    split
    · next heq =>
      cases heq
      exact absurd rfl hclose
    · rw [← hu]
      exact ih rfl (by omega) (by omega)
/-! ### Objects -/

/-- The keys of members. -/
def keysOf (entries : List (Text × Text)) : List Text := entries.map Prod.fst

/-- No key of the members is repeated, or is one of those seen. -/
def FreshKeys (seen : List Text) (entries : List (Text × Text)) : Prop :=
  (keysOf entries).Nodup ∧ ∀ key ∈ keysOf entries, key ∉ seen

theorem freshKeys_cons {seen : List Text} {key raw : Text} :
    FreshKeys seen ((key, raw) :: entries) ↔ key ∉ seen ∧ FreshKeys (key :: seen) entries := by
  unfold FreshKeys keysOf
  simp only [List.map_cons, List.nodup_cons, List.mem_cons, forall_eq_or_imp, not_or]
  constructor
  · rintro ⟨⟨hkey, hnodup⟩, hseen, hfresh⟩
    refine ⟨hseen, hnodup, fun k hk => ⟨?_, hfresh k hk⟩⟩
    rintro rfl
    exact hkey hk
  · rintro ⟨hseen, hnodup, hfresh⟩
    exact ⟨⟨fun hkey => (hfresh key hkey).1 rfl, hnodup⟩, hseen, fun k hk => (hfresh k hk).2⟩

theorem freshKeys_nil (seen : List Text) : FreshKeys seen [] := ⟨List.nodup_nil, by simp [keysOf]⟩

/-- What a derived member is for the reader of its key, its colon and its value. -/
theorem member_reads (hreads : ReadsValues parseValue n) {key raw : Text}
    (h : Derives LooseScalar (.member key raw) scalars s t) (hn : s.length ≤ n) (ht : Follow t) :
    ∃ s' s'', jsonParseStringToken s = .ok (key, s') ∧ jsonSkipWs s' = ':' :: s'' ∧
      parseValue s'' = .ok t := by
  cases h with
  | @member _ _ _ _ s' s'' _ hkey hb hb' hvalue =>
    have hlength : s''.length ≤ s.length := by
      obtain ⟨k, rfl, -⟩ := hkey.exists_append
      have hcolon := hb.suffix.length_le
      simp only [List.length_cons, List.length_append] at hcolon ⊢
      omega
    exact ⟨s', s'', jsonParseStringToken_eq_ok.mpr hkey, jsonSkipWs_of_blanks hb rfl,
      hreads.complete (by omega) hb' hvalue ht⟩

/-- The member that was read is derived. -/
theorem member_derived (hreads : ReadsValues parseValue n) {key s' s'' : Text}
    (hkey : jsonParseStringToken s = .ok (key, s')) (hcolon : jsonSkipWs s' = ':' :: s'')
    (hvalue : parseValue s'' = .ok t) :
    ∃ raw scalars, Derives LooseScalar (.member key raw) scalars s t := by
  obtain ⟨scalars, u, hb, hvalue⟩ := hreads.sound hvalue
  obtain ⟨raw, rfl⟩ := hvalue.suffix
  exact ⟨raw, scalars, .member (jsonParseStringToken_eq_ok.mp hkey)
    (hcolon ▸ blanks_jsonSkipWs s') hb hvalue⟩

theorem jsonObjectLoop_sound (hreads : ReadsValues parseValue n) {seen : List Text}
    (h : jsonObjectLoop parseValue rounds seen s = .ok t) :
    ∃ entries scalars, Derives LooseScalar (.members entries) scalars s t ∧
      FreshKeys seen entries := by
  induction rounds generalizing s seen with
  | zero => cases h
  | succ rounds ih =>
    match s with
    | [] => cases h
    | c :: s =>
      rw [jsonObjectLoop.eq_3 _ _ _ _ (by simp), bind_eq_ok] at h
      obtain ⟨⟨key, s'⟩, hkey, h⟩ := h
      dsimp only at h
      split at h
      · cases h
      next hseen =>
      split at h
      · next s'' hcolon =>
        rw [bind_eq_ok] at h
        obtain ⟨rest, hvalue, h⟩ := h
        obtain ⟨raw, scalars, hmember⟩ := member_derived hreads hkey hcolon hvalue
        have hskip := blanks_jsonSkipWs rest
        split at h
        · next json hrest =>
          have hskip' := blanks_jsonSkipWs json
          split at h
          · cases h
          · obtain ⟨entries, scalars', hmembers, hfresh⟩ := ih h
            exact ⟨_, _, .moreMembers hmember (hrest ▸ hskip) hskip' hmembers,
              freshKeys_cons.mpr ⟨hseen, hfresh⟩⟩
        · next json hrest =>
          cases h
          exact ⟨_, _, .lastMember hmember (hrest ▸ hskip),
            freshKeys_cons.mpr ⟨hseen, freshKeys_nil _⟩⟩
        · cases h
      · cases h

theorem member_starts {key raw : Text} (h : Derives LooseScalar (.member key raw) scalars s t) :
    ∃ rest, s = '"' :: rest := by
  cases h with
  | member hkey =>
    obtain ⟨-⟩ := hkey
    exact ⟨_, rfl⟩

theorem members_starts (h : Derives LooseScalar (.members entries) scalars s t) :
    ∃ rest, s = '"' :: rest := by
  cases h with
  | lastMember hmember | moreMembers hmember => exact member_starts hmember

theorem jsonObjectLoop_complete (hreads : ReadsValues parseValue n) {part : Part}
    (h : Derives LooseScalar part scalars s t) (hpart : part = .members entries)
    {seen : List Text} (hfresh : FreshKeys seen entries) (hn : s.length ≤ n)
    (hrounds : s.length ≤ rounds) : jsonObjectLoop parseValue rounds seen s = .ok t := by
  induction h generalizing rounds seen entries with
  | string | scalar | emptyArray | array | emptyObject | object | member | lastItem
  | item => cases hpart
  | @lastMember key raw scalars s s' t hmember hb =>
    cases hpart
    have hlength := member_length hmember
    obtain ⟨rounds, rfl⟩ := Nat.exists_eq_succ_of_ne_zero (show rounds ≠ 0 by omega)
    obtain ⟨u, u', hkey, hcolon, hvalue⟩ := member_reads hreads hmember hn (hb.follow rfl)
    rw [jsonObjectLoop.eq_3 _ _ _ _ (by rintro rfl; simp at hlength), bind_eq_ok]
    refine ⟨(key, u), hkey, ?_⟩
    rw [freshKeys_cons] at hfresh
    simp only [if_neg hfresh.1, hcolon, hvalue]
    exact bind_eq_ok.mpr ⟨s', rfl, by simp only [jsonSkipWs_of_blanks hb rfl]⟩
  | @moreMembers key raw entries' scalars scalars' s s' s'' u t hmember hb hb' hmembers _ ih =>
    cases hpart
    have hlength := member_length hmember
    have hcomma := hb.suffix.length_le
    have hnext := hb'.suffix.length_le
    simp only [List.length_cons] at hcomma
    obtain ⟨rounds, rfl⟩ := Nat.exists_eq_succ_of_ne_zero (show rounds ≠ 0 by omega)
    obtain ⟨v, v', hkey, hcolon, hvalue⟩ := member_reads hreads hmember hn (hb.follow rfl)
    rw [jsonObjectLoop.eq_3 _ _ _ _ (by rintro rfl; simp at hlength), bind_eq_ok]
    refine ⟨(key, v), hkey, ?_⟩
    rw [freshKeys_cons] at hfresh
    simp only [if_neg hfresh.1, hcolon, hvalue]
    refine bind_eq_ok.mpr ⟨s', rfl, ?_⟩
    -- the next member starts with its quote, and not with the closing brace
    obtain ⟨rest, hu⟩ := members_starts hmembers
    have hskip : jsonSkipWs s'' = '"' :: rest := by
      rw [jsonSkipWs_blanks hb', jsonSkipWs_starts hu rfl, hu]
    simp only [jsonSkipWs_of_blanks hb rfl, hskip]
    change jsonObjectLoop parseValue rounds (key :: seen) ('"' :: rest) = .ok t
    rw [← hu]
    exact ih rfl hfresh.2 (by omega) (by omega)

/-! ### The reader of values -/

theorem jsonParseArray_sound (hreads : ReadsValues parseValue n)
    (h : jsonParseArraySyntaxStrict parseValue ('[' :: s) = .ok t) :
    ∃ scalars, Derives LooseScalar .value scalars ('[' :: s) t := by
  have hskip := blanks_jsonSkipWs s
  rw [jsonParseArraySyntaxStrict] at h
  split at h
  · next json hs =>
    cases h
    exact ⟨_, .emptyArray (hs ▸ hskip)⟩
  · obtain ⟨scalars, s', hb, hitems⟩ := jsonArrayLoop_sound hreads h
    exact ⟨_, .array (hskip.trans hb) hitems⟩

theorem jsonParseObject_sound (hreads : ReadsValues parseValue n)
    (h : jsonParseObjectSyntaxStrict parseValue ('{' :: s) = .ok t) :
    ∃ scalars, Derives LooseScalar .value scalars ('{' :: s) t := by
  have hskip := blanks_jsonSkipWs s
  rw [jsonParseObjectSyntaxStrict] at h
  split at h
  · next json hs =>
    cases h
    exact ⟨_, .emptyObject (hs ▸ hskip)⟩
  · obtain ⟨entries, scalars, hmembers, hfresh⟩ := jsonObjectLoop_sound hreads h
    exact ⟨_, .object hskip hfresh.1 hmembers⟩

theorem jsonParseArray_complete (hreads : ReadsValues parseValue n) (hn : s.length ≤ n)
    (h : Derives LooseScalar .value scalars ('[' :: s) t) :
    jsonParseArraySyntaxStrict parseValue ('[' :: s) = .ok t := by
  rw [jsonParseArraySyntaxStrict]
  generalize hsource : '[' :: s = source at h
  cases h with
  | string htoken =>
    obtain ⟨-⟩ := htoken
    cases hsource
  | scalar hw =>
    obtain ⟨-, c, rest, rfl, hc⟩ := runs_looseScalar _ hw
    cases hsource
    exact absurd hc (by decide)
  | emptyObject | object => cases hsource
  | emptyArray hb =>
    cases hsource
    simp only [jsonSkipWs_of_blanks hb rfl]
  | @array _ _ s' _ hb hitems =>
    cases hsource
    obtain ⟨c, rest, hs', hc⟩ := items_starts hitems
    have hlength := hb.suffix.length_le
    have hskip : jsonSkipWs s = s' := by rw [jsonSkipWs_blanks hb, jsonSkipWs_starts hs' hc]
    rw [hskip]
    split
    · cases hs'
      exact absurd hc (by decide)
    · exact jsonArrayLoop_complete hreads hitems rfl (by omega) (Nat.le_refl _)

theorem jsonParseObject_complete (hreads : ReadsValues parseValue n) (hn : s.length ≤ n)
    (h : Derives LooseScalar .value scalars ('{' :: s) t) :
    jsonParseObjectSyntaxStrict parseValue ('{' :: s) = .ok t := by
  rw [jsonParseObjectSyntaxStrict]
  generalize hsource : '{' :: s = source at h
  cases h with
  | string htoken =>
    obtain ⟨-⟩ := htoken
    cases hsource
  | scalar hw =>
    obtain ⟨-, c, rest, rfl, hc⟩ := runs_looseScalar _ hw
    cases hsource
    exact absurd hc (by decide)
  | emptyArray | array => cases hsource
  | emptyObject hb =>
    cases hsource
    simp only [jsonSkipWs_of_blanks hb rfl]
  | @object entries _ _ s' _ hb hnodup hmembers =>
    cases hsource
    obtain ⟨rest, hs'⟩ := members_starts hmembers
    have hlength := hb.suffix.length_le
    have hskip : jsonSkipWs s = s' := by rw [jsonSkipWs_blanks hb, jsonSkipWs_starts hs' rfl]
    rw [hskip]
    split
    · cases hs'
    · exact jsonObjectLoop_complete hreads hmembers rfl ⟨hnodup, by simp⟩ (by omega)
        (Nat.le_refl _)

theorem string_of_value (h : Derives LooseScalar .value scalars ('"' :: s) t) :
    ∃ v, StringToken ('"' :: s) v t := by
  generalize hsource : '"' :: s = source at h
  cases h with
  | @string _ v _ htoken => exact ⟨v, htoken⟩
  | scalar hw =>
    obtain ⟨-, c, rest, rfl, hc⟩ := runs_looseScalar _ hw
    cases hsource
    exact absurd hc (by decide)
  | emptyArray | array | emptyObject | object => cases hsource

/-- A value that is not a string, an array or an object is a scalar. -/
theorem scalar_of_value (h : Derives LooseScalar .value scalars s t)
    (hq : ∀ json, s = '"' :: json → False) (hbrace : ∀ json, s = '{' :: json → False)
    (hbracket : ∀ json, s = '[' :: json → False) : ∃ w, s = w ++ t ∧ LooseScalar w := by
  cases h with
  | string htoken =>
    obtain ⟨-⟩ := htoken
    exact absurd rfl (hq _)
  | emptyArray | array => exact absurd rfl (hbracket _)
  | emptyObject | object => exact absurd rfl (hbrace _)
  | @scalar w _ hw => exact ⟨w, rfl, hw⟩

end Loops

/-- **The reader of values** reads the values of the grammar, of a text that is not longer
than the depth it may go down. -/
theorem readsValues (depth : ℕ) : ReadsValues (jsonParseValueSyntaxStrict depth) depth := by
  induction depth with
  | zero =>
    refine ⟨fun h => ?_, fun hn hb hvalue _ => ?_⟩
    · cases h
    · have hlength := value_length hvalue
      have hblanks := hb.suffix.length_le
      omega
  | succ depth ih =>
    refine ⟨fun {s t} h => ?_, fun {s s' t scalars} hn hb hvalue ht => ?_⟩
    · have hskip := blanks_jsonSkipWs s
      rw [jsonParseValueSyntaxStrict.eq_2] at h
      split at h
      · cases h
      · next json hs =>
        obtain ⟨⟨v, rest⟩, htoken, h⟩ := bind_eq_ok.mp h
        cases h
        exact ⟨_, _, hs ▸ hskip, .string (jsonParseStringToken_eq_ok.mp htoken)⟩
      · next json hs =>
        obtain ⟨scalars, hobject⟩ := jsonParseObject_sound ih h
        exact ⟨scalars, _, hs ▸ hskip, hobject⟩
      · next json hs =>
        obtain ⟨scalars, harray⟩ := jsonParseArray_sound ih h
        exact ⟨scalars, _, hs ▸ hskip, harray⟩
      · obtain ⟨w, hs, hw, -⟩ := jsonParseScalar_sound h
        exact ⟨[w], _, hs ▸ hskip, .scalar hw⟩
    · obtain ⟨c, rest, hs', hc⟩ := value_starts hvalue
      have hskip : jsonSkipWs s = s' := by rw [jsonSkipWs_blanks hb, jsonSkipWs_starts hs' hc]
      have hlength : rest.length ≤ depth := by
        have hblanks := hb.suffix.length_le
        rw [hs', List.length_cons] at hblanks
        omega
      rw [jsonParseValueSyntaxStrict.eq_2, hskip]
      split
      · cases hs'
      · obtain ⟨v, htoken⟩ := string_of_value hvalue
        exact bind_eq_ok.mpr ⟨(v, t), jsonParseStringToken_eq_ok.mpr htoken, rfl⟩
      · cases hs'
        exact jsonParseObject_complete ih hlength hvalue
      · cases hs'
        exact jsonParseArray_complete ih hlength hvalue
      · next hq hbrace hbracket =>
        obtain ⟨w, rfl, hw⟩ := scalar_of_value hvalue hq hbrace hbracket
        exact jsonParseScalar_complete hw ht

/-! ## The depth does not run out -/

section Depth

variable {parseValue parseValue' : Text → Except String Text} {n m rounds : ℕ} {s t : Text}

theorem read_length (hreads : ReadsValues parseValue n) (h : parseValue s = .ok t) :
    t.length < s.length := by
  obtain ⟨scalars, s', hb, hvalue⟩ := hreads.sound h
  exact Nat.lt_of_lt_of_le (value_length hvalue) hb.suffix.length_le

theorem jsonArrayLoop_congr (hreads : ReadsValues parseValue' m)
    (hsame : ∀ s, s.length ≤ n → parseValue s = parseValue' s) (hn : s.length ≤ n) :
    jsonArrayLoop parseValue rounds s = jsonArrayLoop parseValue' rounds s := by
  induction rounds generalizing s with
  | zero => rfl
  | succ rounds ih =>
    by_cases hne : s = []
    · subst hne
      rfl
    rw [jsonArrayLoop.eq_3 _ _ _ hne, jsonArrayLoop.eq_3 _ _ _ hne, hsame s hn]
    cases hvalue : parseValue' s with
    | error e => rfl
    | ok t =>
      have hlength := read_length hreads hvalue
      have hskip := length_jsonSkipWs t
      simp only [bind, Except.bind]
      split
      · next json ht =>
        have hskip' := length_jsonSkipWs json
        rw [ht, List.length_cons] at hskip
        split
        · rfl
        · exact ih (by omega)
      · rfl
      · rfl

theorem jsonObjectLoop_congr (hreads : ReadsValues parseValue' m)
    (hsame : ∀ s, s.length ≤ n → parseValue s = parseValue' s) (hn : s.length ≤ n)
    (seen : List Text) :
    jsonObjectLoop parseValue rounds seen s = jsonObjectLoop parseValue' rounds seen s := by
  induction rounds generalizing s seen with
  | zero => rfl
  | succ rounds ih =>
    by_cases hne : s = []
    · subst hne
      rfl
    rw [jsonObjectLoop.eq_3 _ _ _ _ hne, jsonObjectLoop.eq_3 _ _ _ _ hne]
    cases hkey : jsonParseStringToken s with
    | error e => rfl
    | ok token =>
      obtain ⟨key, s'⟩ := token
      obtain ⟨k, rfl, -⟩ := (jsonParseStringToken_eq_ok.mp hkey).exists_append
      have hcolon := length_jsonSkipWs s'
      simp only [bind, Except.bind]
      split
      · rfl
      split
      · next s'' hs' =>
        rw [hs', List.length_cons] at hcolon
        rw [List.length_append] at hn
        rw [hsame s'' (by omega)]
        cases hvalue : parseValue' s'' with
        | error e => rfl
        | ok t =>
          have hlength := read_length hreads hvalue
          have hskip := length_jsonSkipWs t
          dsimp only
          split
          · next json ht =>
            have hskip' := length_jsonSkipWs json
            rw [ht, List.length_cons] at hskip
            split
            · rfl
            · exact ih (by omega) _
          · rfl
          · rfl
      · rfl

/-- **More depth than characters makes no difference**: the reader never ends for want of
depth where the code would go on. -/
theorem jsonParseValueSyntaxStrict_succ {depth : ℕ} (h : s.length ≤ depth) :
    jsonParseValueSyntaxStrict (depth + 1) s = jsonParseValueSyntaxStrict depth s := by
  induction depth generalizing s with
  | zero =>
    obtain rfl := List.length_eq_zero_iff.mp (Nat.le_zero.mp h)
    rfl
  | succ depth ih =>
    have hskip := length_jsonSkipWs s
    rw [jsonParseValueSyntaxStrict.eq_2, jsonParseValueSyntaxStrict.eq_2 s depth]
    split
    · rfl
    · rfl
    · next json hs =>
      rw [hs, List.length_cons] at hskip
      have hinner := length_jsonSkipWs json
      rw [jsonParseObjectSyntaxStrict, jsonParseObjectSyntaxStrict]
      split
      · rfl
      · exact jsonObjectLoop_congr (readsValues depth) (fun _ hn => ih hn) (by omega) []
    · next json hs =>
      rw [hs, List.length_cons] at hskip
      have hinner := length_jsonSkipWs json
      rw [jsonParseArraySyntaxStrict, jsonParseArraySyntaxStrict]
      split
      · rfl
      · exact jsonArrayLoop_congr (readsValues depth) (fun _ hn => ih hn) (by omega)
    · rfl

end Depth

end Cpueaxh
