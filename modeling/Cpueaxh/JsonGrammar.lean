/-
# A grammar of JSON objects

The texts of JSON over a class of scalars that is a parameter: the grammar asks of a scalar
only that it is in the class.  Each part of the grammar relates a text to what is left of it
behind the part, so that a reader which walks along the text can be compared with it rule
by rule.

Strings have the escapes of one letter.  A derivation lists the scalar tokens that it took;
the text determines them as long as no scalar contains what may stand behind one.
-/
import Mathlib.Data.List.Nodup
import Mathlib.Data.Nat.Notation

namespace JsonGrammar

/-- A text, one `Char` for each byte. -/
abbrev Text := List Char

/-! ## Blanks -/

/-- The white space of JSON. -/
def isBlank (c : Char) : Bool := c = ' ' || c = '\n' || c = '\r' || c = '\t'

/-- What ends a scalar: a comma, a closing bracket or brace, or a blank. -/
def isDelimiter (c : Char) : Bool := c = ',' || c = '}' || c = ']' || isBlank c

theorem isDelimiter_of_isBlank {c : Char} (h : isBlank c = true) : isDelimiter c = true := by
  simp [isDelimiter, h]

/-- A text, and the same text behind some of its leading blanks. -/
inductive Blanks : Text → Text → Prop
  | none {s : Text} : Blanks s s
  | more {c : Char} {s t : Text} : isBlank c = true → Blanks s t → Blanks (c :: s) t

/-- Nothing is left, or a delimiter comes first. -/
def Follow (t : Text) : Prop := ∀ c rest, t = c :: rest → isDelimiter c = true

theorem Follow.nil : Follow [] := by
  intro c rest h
  cases h

theorem Follow.cons {c : Char} {t : Text} (h : isDelimiter c = true) : Follow (c :: t) := by
  intro c' rest heq
  cases heq
  exact h

namespace Blanks

variable {s t u : Text} {c : Char}

theorem trans (h : Blanks s t) (h' : Blanks t u) : Blanks s u := by
  induction h with
  | none => exact h'
  | more hc _ ih => exact .more hc (ih h')

theorem suffix (h : Blanks s t) : t <:+ s := by
  induction h with
  | none => exact List.suffix_refl _
  | more _ _ ih => exact ih.trans (List.suffix_cons ..)

/-- The blanks that were passed. -/
theorem exists_append (h : Blanks s t) : ∃ b, s = b ++ t ∧ ∀ c ∈ b, isBlank c = true := by
  induction h with
  | none => exact ⟨[], rfl, by simp⟩
  | @more c s t hc _ ih =>
    obtain ⟨b, rfl, hb⟩ := ih
    exact ⟨c :: b, rfl, by simpa [hc] using hb⟩

/-- Blanks in front of a delimiter follow a scalar. -/
theorem follow (h : Blanks s (c :: t)) (hc : isDelimiter c = true) : Follow s := by
  cases h with
  | none => exact .cons hc
  | more hb _ => exact .cons (isDelimiter_of_isBlank hb)

end Blanks

/-! ## Strings -/

/-- The character that an escape of one letter stands for. -/
def escaped : Char → Option Char
  | '"' => some '"'
  | '\\' => some '\\'
  | '/' => some '/'
  | 'b' => some (Char.ofNat 8)
  | 'f' => some (Char.ofNat 12)
  | 'n' => some '\n'
  | 'r' => some '\r'
  | 't' => some '\t'
  | _ => none

/-- The rest of a string behind its opening quote, and the value of this rest. -/
inductive StringBody : Text → Text → Text → Prop
  | close {t : Text} : StringBody ('"' :: t) [] t
  | plain {c : Char} {s v t : Text} : c ≠ '"' → c ≠ '\\' → 0x20 ≤ c.toNat → StringBody s v t →
      StringBody (c :: s) (c :: v) t
  | escape {e c : Char} {s v t : Text} : escaped e = some c → StringBody s v t →
      StringBody ('\\' :: e :: s) (c :: v) t

/-- A string with its quotes, and its value. -/
inductive StringToken : Text → Text → Text → Prop
  | quote {s v t : Text} : StringBody s v t → StringToken ('"' :: s) v t

theorem StringBody.exists_append {s v t : Text} (h : StringBody s v t) :
    ∃ raw, s = raw ++ t ∧ raw ≠ [] ∧ ∀ t', StringBody (raw ++ t') v t' := by
  induction h with
  | @close t => exact ⟨['"'], rfl, by simp, fun t' => .close⟩
  | @plain c s v t hq hb hc _ ih =>
    obtain ⟨raw, rfl, -, hraw⟩ := ih
    exact ⟨c :: raw, rfl, by simp, fun t' => .plain hq hb hc (hraw t')⟩
  | @escape e c s v t he _ ih =>
    obtain ⟨raw, rfl, -, hraw⟩ := ih
    exact ⟨'\\' :: e :: raw, rfl, by simp, fun t' => .escape he (hraw t')⟩

/-- A string is a token of its own: what follows it does not matter. -/
theorem StringToken.exists_append {s v t : Text} (h : StringToken s v t) :
    ∃ raw, s = raw ++ t ∧ ∀ t', StringToken (raw ++ t') v t' := by
  obtain ⟨hbody⟩ := h
  obtain ⟨raw, rfl, -, hraw⟩ := hbody.exists_append
  exact ⟨'"' :: raw, rfl, fun t' => .quote (hraw t')⟩

/-- A text starts with one string at most. -/
theorem StringBody.unique {s v t v' t' : Text} (h : StringBody s v t)
    (h' : StringBody s v' t') : v = v' ∧ t = t' := by
  induction h generalizing v' with
  | close =>
    cases h' with
    | close => exact ⟨rfl, rfl⟩
    | plain hq => exact absurd rfl hq
  | plain hq hb _ _ ih =>
    cases h' with
    | close => exact absurd rfl hq
    | plain _ _ _ hrest =>
      obtain ⟨rfl, rfl⟩ := ih hrest
      exact ⟨rfl, rfl⟩
    | escape => exact absurd rfl hb
  | escape he _ ih =>
    cases h' with
    | plain _ hb => exact absurd rfl hb
    | escape he' hrest =>
      obtain ⟨rfl, rfl⟩ := ih hrest
      cases he.symm.trans he'
      exact ⟨rfl, rfl⟩

theorem StringToken.unique {s v t v' t' : Text} (h : StringToken s v t)
    (h' : StringToken s v' t') : v = v' ∧ t = t' := by
  obtain ⟨hbody⟩ := h
  obtain ⟨hbody'⟩ := h'
  exact hbody.unique hbody'

/-! ## Scalars -/

/-- A character that may start a number. -/
def isNumberStart (c : Char) : Bool := c = '-' || c.isDigit

/-- One digit or more. -/
def IsDigits (w : Text) : Prop := w ≠ [] ∧ ∀ c ∈ w, c.isDigit = true

/-- The number that digits denote, the first digit being the highest. -/
def decimalValue (w : Text) : ℕ := w.foldl (fun n c => 10 * n + (c.toNat - '0'.toNat)) 0

/-- The integer part of a number: no zero in front of another digit. -/
def IsInteger (w : Text) : Prop := IsDigits w ∧ (w.head? = some '0' → w = ['0'])

def IsFraction (w : Text) : Prop := w = [] ∨ ∃ digits, IsDigits digits ∧ w = '.' :: digits

def IsExponent (w : Text) : Prop :=
  w = [] ∨ ∃ e sign digits, (e = 'e' ∨ e = 'E') ∧ (sign = [] ∨ sign = ['+'] ∨ sign = ['-']) ∧
    IsDigits digits ∧ w = e :: sign ++ digits

/-- A JSON number. -/
def IsNumber (w : Text) : Prop :=
  ∃ sign integer fraction exponent, (sign = [] ∨ sign = ['-']) ∧ IsInteger integer ∧
    IsFraction fraction ∧ IsExponent exponent ∧ w = sign ++ integer ++ fraction ++ exponent

def IsLiteral (w : Text) : Prop :=
  w = ['t', 'r', 'u', 'e'] ∨ w = ['f', 'a', 'l', 's', 'e'] ∨ w = ['n', 'u', 'l', 'l']

/-- The scalars of JSON. -/
def StrictScalar (w : Text) : Prop := IsLiteral w ∨ IsNumber w

/-- A run without a delimiter that is a literal or starts as a number does. -/
def LooseScalar (w : Text) : Prop :=
  (∀ c ∈ w, isDelimiter c = false) ∧
    (IsLiteral w ∨ ∃ c rest, w = c :: rest ∧ isNumberStart c = true)

/-! ## A number is a run that starts as one -/

section Numbers

variable {w : Text} {c : Char}

theorem not_isDelimiter_of_isDigit (h : c.isDigit = true) : isDelimiter c = false := by
  have hne : ∀ d : Char, d.isDigit = false → c ≠ d := by
    rintro d hd rfl
    exact absurd (h.symm.trans hd) (by decide)
  simp only [isDelimiter, isBlank, Bool.or_eq_false_iff, decide_eq_false_iff_not]
  exact ⟨⟨⟨hne _ rfl, hne _ rfl⟩, hne _ rfl⟩, ⟨⟨hne _ rfl, hne _ rfl⟩, hne _ rfl⟩, hne _ rfl⟩

theorem IsDigits.clear (h : IsDigits w) : ∀ c ∈ w, isDelimiter c = false :=
  fun c hc => not_isDelimiter_of_isDigit (h.2 c hc)

theorem IsFraction.clear (h : IsFraction w) : ∀ c ∈ w, isDelimiter c = false := by
  rcases h with rfl | ⟨digits, hdigits, rfl⟩
  · simp
  · intro c hc
    rcases List.mem_cons.mp hc with rfl | hc
    · rfl
    · exact hdigits.clear c hc

theorem IsExponent.clear (h : IsExponent w) : ∀ c ∈ w, isDelimiter c = false := by
  rcases h with rfl | ⟨e, sign, digits, he, hsign, hdigits, rfl⟩
  · simp
  intro c hc
  simp only [List.cons_append, List.mem_cons, List.mem_append] at hc
  rcases hc with rfl | hc | hc
  · rcases he with rfl | rfl <;> rfl
  · rcases hsign with rfl | rfl | rfl
    · cases hc
    · cases List.mem_singleton.mp hc
      rfl
    · cases List.mem_singleton.mp hc
      rfl
  · exact hdigits.clear c hc

theorem IsNumber.clear (h : IsNumber w) : ∀ c ∈ w, isDelimiter c = false := by
  obtain ⟨sign, integer, fraction, exponent, hsign, ⟨hinteger, -⟩, hfraction, hexponent, rfl⟩ := h
  intro c hc
  simp only [List.append_assoc, List.mem_append] at hc
  rcases hc with hc | hc | hc | hc
  · rcases hsign with rfl | rfl
    · cases hc
    · cases List.mem_singleton.mp hc
      rfl
  · exact hinteger.clear c hc
  · exact hfraction.clear c hc
  · exact hexponent.clear c hc

theorem IsNumber.starts (h : IsNumber w) : ∃ c rest, w = c :: rest ∧ isNumberStart c = true := by
  obtain ⟨sign, integer, fraction, exponent, hsign, ⟨⟨hne, hdigits⟩, -⟩, -, -, rfl⟩ := h
  rcases hsign with rfl | rfl
  · obtain ⟨c, rest, rfl⟩ := List.exists_cons_of_ne_nil hne
    exact ⟨c, _, rfl, by simp [isNumberStart, hdigits c (List.mem_cons_self ..)]⟩
  · exact ⟨'-', _, rfl, rfl⟩

theorem clear_of_any (h : w.any isDelimiter = false) : ∀ c ∈ w, isDelimiter c = false :=
  fun c hc => by simpa using List.any_eq_false.mp h c hc

theorem IsLiteral.clear (h : IsLiteral w) : ∀ c ∈ w, isDelimiter c = false := by
  rcases h with rfl | rfl | rfl <;> exact clear_of_any (by decide)

/-- **Every scalar of JSON is a loose one.** -/
theorem StrictScalar.loose (h : StrictScalar w) : LooseScalar w := by
  rcases h with hliteral | hnumber
  · exact ⟨hliteral.clear, .inl hliteral⟩
  · exact ⟨hnumber.clear, .inr hnumber.starts⟩

/-- What a run of a scalar starts with is no bracket, no brace, no quote and no separator. -/
def startsRun (c : Char) : Bool :=
  !(isDelimiter c || c = '"' || c = '{' || c = '[' || c = ':')

/-- A class of scalars that are runs: not empty, without a delimiter, and starting with a
character of their own. -/
def Runs (Scalar : Text → Prop) : Prop :=
  ∀ w, Scalar w → (∀ c ∈ w, isDelimiter c = false) ∧ ∃ c rest, w = c :: rest ∧ startsRun c = true

theorem startsRun_of_isNumberStart (h : isNumberStart c = true) : startsRun c = true := by
  rcases Bool.or_eq_true .. ▸ h with h | h
  · rw [of_decide_eq_true h]
    rfl
  have hne : ∀ d : Char, d.isDigit = false → c ≠ d := by
    rintro d hd rfl
    exact absurd (h.symm.trans hd) (by decide)
  simp only [startsRun, not_isDelimiter_of_isDigit h, Bool.false_or, Bool.not_eq_true',
    Bool.or_eq_false_iff, decide_eq_false_iff_not]
  exact ⟨⟨⟨hne _ rfl, hne _ rfl⟩, hne _ rfl⟩, hne _ rfl⟩

theorem runs_looseScalar : Runs LooseScalar := by
  rintro w ⟨hclear, hliteral | ⟨c, rest, rfl, hc⟩⟩
  · refine ⟨hclear, ?_⟩
    rcases hliteral with rfl | rfl | rfl <;> exact ⟨_, _, rfl, rfl⟩
  · exact ⟨hclear, c, rest, rfl, startsRun_of_isNumberStart hc⟩

end Numbers

/-! ## The grammar -/

/-- The parts of an object.  A member has its key and the text of its value. -/
inductive Part
  | value
  | items
  | member (key raw : Text)
  | members (entries : List (Text × Text))

/-- **A part of the grammar**, with the scalar tokens in it, in front of what is left of the
text.  `items` and `members` reach to the closing bracket or brace. -/
inductive Derives (Scalar : Text → Prop) : Part → List Text → Text → Text → Prop
  | string {s v t : Text} : StringToken s v t → Derives Scalar .value [] s t
  | scalar {w t : Text} : Scalar w → Derives Scalar .value [w] (w ++ t) t
  | emptyArray {s t : Text} : Blanks s (']' :: t) → Derives Scalar .value [] ('[' :: s) t
  | array {scalars : List Text} {s s' t : Text} : Blanks s s' →
      Derives Scalar .items scalars s' t → Derives Scalar .value scalars ('[' :: s) t
  | emptyObject {s t : Text} : Blanks s ('}' :: t) → Derives Scalar .value [] ('{' :: s) t
  | object {entries : List (Text × Text)} {scalars : List Text} {s s' t : Text} : Blanks s s' →
      (entries.map Prod.fst).Nodup → Derives Scalar (.members entries) scalars s' t →
      Derives Scalar .value scalars ('{' :: s) t
  | lastItem {scalars : List Text} {s s' t : Text} : Derives Scalar .value scalars s s' →
      Blanks s' (']' :: t) → Derives Scalar .items scalars s t
  | item {scalars scalars' : List Text} {s s' s'' u t : Text} :
      Derives Scalar .value scalars s s' → Blanks s' (',' :: s'') → Blanks s'' u →
      Derives Scalar .items scalars' u t → Derives Scalar .items (scalars ++ scalars') s t
  | member {key raw : Text} {scalars : List Text} {s s' s'' t : Text} : StringToken s key s' →
      Blanks s' (':' :: s'') → Blanks s'' (raw ++ t) → Derives Scalar .value scalars (raw ++ t) t →
      Derives Scalar (.member key raw) scalars s t
  | lastMember {key raw : Text} {scalars : List Text} {s s' t : Text} :
      Derives Scalar (.member key raw) scalars s s' → Blanks s' ('}' :: t) →
      Derives Scalar (.members [(key, raw)]) scalars s t
  | moreMembers {key raw : Text} {entries : List (Text × Text)} {scalars scalars' : List Text}
      {s s' s'' u t : Text} :
      Derives Scalar (.member key raw) scalars s s' → Blanks s' (',' :: s'') → Blanks s'' u →
      Derives Scalar (.members entries) scalars' u t →
      Derives Scalar (.members ((key, raw) :: entries)) (scalars ++ scalars') s t

namespace Derives

variable {Scalar Scalar' : Text → Prop} {part : Part} {scalars : List Text} {s t : Text}

/-- A derivation is one over every class that has its scalar tokens. -/
theorem mono (h : Derives Scalar part scalars s t) (hscalar : ∀ w ∈ scalars, Scalar' w) :
    Derives Scalar' part scalars s t := by
  induction h with
  | string htoken => exact .string htoken
  | scalar => exact .scalar (hscalar _ (List.mem_singleton_self _))
  | emptyArray hb => exact .emptyArray hb
  | array hb _ ih => exact .array hb (ih hscalar)
  | emptyObject hb => exact .emptyObject hb
  | object hb hnodup _ ih => exact .object hb hnodup (ih hscalar)
  | lastItem _ hb ih => exact .lastItem (ih hscalar) hb
  | item _ hb hb' _ ih ih' =>
    exact .item (ih fun w hw => hscalar w (List.mem_append_left _ hw)) hb hb'
      (ih' fun w hw => hscalar w (List.mem_append_right _ hw))
  | member hkey hb hb' _ ih => exact .member hkey hb hb' (ih hscalar)
  | lastMember _ hb ih => exact .lastMember (ih hscalar) hb
  | moreMembers _ hb hb' _ ih ih' =>
    exact .moreMembers (ih fun w hw => hscalar w (List.mem_append_left _ hw)) hb hb'
      (ih' fun w hw => hscalar w (List.mem_append_right _ hw))

/-- The scalar tokens of a derivation are scalars. -/
theorem scalars_mem (h : Derives Scalar part scalars s t) : ∀ w ∈ scalars, Scalar w := by
  induction h with
  | string | emptyArray | emptyObject => simp
  | scalar hw => simpa using hw
  | array _ _ ih | object _ _ _ ih | lastItem _ _ ih | member _ _ _ _ ih | lastMember _ _ ih =>
    exact ih
  | item _ _ _ _ ih ih' | moreMembers _ _ _ _ ih ih' =>
    intro w hw
    exact (List.mem_append.mp hw).elim (ih w) (ih' w)

/-- What is left is an end of the text. -/
theorem suffix (h : Derives Scalar part scalars s t) : t <:+ s := by
  induction h with
  | string htoken =>
    obtain ⟨raw, rfl, -⟩ := htoken.exists_append
    exact List.suffix_append ..
  | scalar => exact List.suffix_append ..
  | emptyArray hb | emptyObject hb =>
    exact ((List.suffix_cons ..).trans hb.suffix).trans (List.suffix_cons ..)
  | array hb _ ih | object hb _ _ ih => exact (ih.trans hb.suffix).trans (List.suffix_cons ..)
  | lastItem _ hb ih | lastMember _ hb ih =>
    exact ((List.suffix_cons ..).trans hb.suffix).trans ih
  | item _ hb hb' _ ih ih' | moreMembers _ hb hb' _ ih ih' =>
    exact ((ih'.trans hb'.suffix).trans (List.suffix_cons ..)).trans (hb.suffix.trans ih)
  | member hkey hb hb' _ ih =>
    obtain ⟨raw, rfl, -⟩ := hkey.exists_append
    exact (((ih.trans hb'.suffix).trans (List.suffix_cons ..)).trans hb.suffix).trans
      (List.suffix_append ..)

end Derives

/-! ## The scalar tokens of a text -/

/-- Where a reader of tokens is: between tokens, in a string, behind a backslash, or in the
run of a scalar. -/
inductive Place
  | between
  | string
  | escape
  | run (w : Text)

/-- The runs of a text outside of its strings.  An escape that stands for no character counts
as an empty run. -/
def runsFrom : Place → Text → List Text
  | .run w, [] => [w]
  | _, [] => []
  | .between, c :: s =>
    if c = '"' then runsFrom .string s
    else if startsRun c then runsFrom (.run [c]) s
    else runsFrom .between s
  | .string, c :: s =>
    if c = '"' then runsFrom .between s
    else if c = '\\' then runsFrom .escape s
    else runsFrom .string s
  | .escape, e :: s =>
    if (escaped e).isSome then runsFrom .string s else [] :: runsFrom .string s
  | .run w, c :: s =>
    if isDelimiter c then w :: runsFrom .between s else runsFrom (.run (w ++ [c])) s

section Tokens

variable {s t v w : Text} {c : Char}

theorem startsRun_of_isDelimiter (h : isDelimiter c = true) : startsRun c = false := by
  simp [startsRun, h]

/-- A separator between tokens. -/
theorem runsFrom_separator (hq : c ≠ '"') (h : startsRun c = false) :
    runsFrom .between (c :: s) = runsFrom .between s := by
  rw [runsFrom, if_neg hq, if_neg (by simp [h])]

theorem Blanks.runsFrom (h : Blanks s t) :
    runsFrom .between s = JsonGrammar.runsFrom .between t := by
  induction h with
  | none => rfl
  | @more c s t hc _ ih =>
    have hd := isDelimiter_of_isBlank hc
    have hq : c ≠ '"' := by
      rintro rfl
      exact absurd hc (by decide)
    rw [runsFrom_separator hq (startsRun_of_isDelimiter hd), ih]

theorem StringBody.runsFrom (h : StringBody s v t) :
    runsFrom .string s = JsonGrammar.runsFrom .between t := by
  induction h with
  | close => rfl
  | plain hq hb _ _ ih => rw [JsonGrammar.runsFrom, if_neg hq, if_neg hb, ih]
  | escape he _ ih =>
    rw [JsonGrammar.runsFrom, if_neg (by decide), if_pos rfl, JsonGrammar.runsFrom,
      if_pos (by rw [he]; rfl), ih]

theorem StringToken.runsFrom (h : StringToken s v t) :
    runsFrom .between s = JsonGrammar.runsFrom .between t := by
  obtain ⟨hbody⟩ := h
  rw [JsonGrammar.runsFrom, if_pos rfl, hbody.runsFrom]

/-- A run that was started goes on up to a delimiter. -/
theorem runsFrom_run (hclear : ∀ c ∈ v, isDelimiter c = false) (ht : Follow t) (w : Text) :
    runsFrom (.run w) (v ++ t) = (w ++ v) :: runsFrom .between t := by
  induction v generalizing w with
  | nil =>
    rw [List.append_nil, List.nil_append]
    match t, ht with
    | [], _ => rfl
    | c :: t, ht =>
      -- the delimiter behind the run is itself passed over between tokens
      have hd := ht c t rfl
      have hq : c ≠ '"' := by
        rintro rfl
        exact absurd hd (by decide)
      rw [runsFrom_separator hq (startsRun_of_isDelimiter hd), runsFrom, if_pos hd]
  | cons c v ih =>
    have hc := hclear c (List.mem_cons_self ..)
    rw [List.cons_append, runsFrom, if_neg (by simp [hc]),
      ih (fun d hd => hclear d (List.mem_cons_of_mem _ hd)), List.append_assoc,
      List.singleton_append]

/-- What follows a part is not a piece of it. -/
def Part.Ends : Part → Text → Prop
  | .value, t | .member _ _, t => Follow t
  | _, _ => True

/-- **The scalar tokens of a part are the runs in front of what is left.** -/
theorem Derives.runs {Scalar : Text → Prop} (hruns : Runs Scalar) {part : Part}
    {scalars : List Text} (h : Derives Scalar part scalars s t) (hend : part.Ends t) :
    runsFrom .between s = scalars ++ runsFrom .between t := by
  induction h with
  | string htoken => exact htoken.runsFrom
  | @scalar w t hw =>
    obtain ⟨hclear, c, rest, rfl, hc⟩ := hruns w hw
    have hq : c ≠ '"' := by
      rintro rfl
      exact absurd hc (by decide)
    rw [List.cons_append, runsFrom, if_neg hq, if_pos hc,
      runsFrom_run (fun d hd => hclear d (List.mem_cons_of_mem _ hd)) hend]
    rfl
  | emptyArray hb | emptyObject hb =>
    rw [runsFrom_separator (by decide) rfl, hb.runsFrom, runsFrom_separator (by decide) rfl]
    rfl
  | array hb _ ih | object hb _ _ ih =>
    rw [runsFrom_separator (by decide) rfl, hb.runsFrom, ih trivial]
  | lastItem _ hb ih | lastMember _ hb ih =>
    rw [ih (hb.follow rfl), hb.runsFrom, runsFrom_separator (by decide) rfl]
  | item _ hb hb' _ ih ih' | moreMembers _ hb hb' _ ih ih' =>
    rw [ih (hb.follow rfl), hb.runsFrom, runsFrom_separator (by decide) rfl, hb'.runsFrom,
      ih' trivial, List.append_assoc]
  | member hkey hb hb' _ ih =>
    rw [hkey.runsFrom, hb.runsFrom, runsFrom_separator (by decide) rfl, hb'.runsFrom, ih hend]

end Tokens

/-! ## Texts of one object -/

/-- **One complete object**, with its scalar tokens and its members. -/
inductive ObjectText (Scalar : Text → Prop) : List Text → List (Text × Text) → Text → Prop
  | empty {text s t : Text} : Blanks text ('{' :: s) → Blanks s ('}' :: t) → Blanks t [] →
      ObjectText Scalar [] [] text
  | members {entries : List (Text × Text)} {scalars : List Text} {text s s' t : Text} :
      Blanks text ('{' :: s) → Blanks s s' → Derives Scalar (.members entries) scalars s' t →
      Blanks t [] → ObjectText Scalar scalars entries text

/-- Members that each have their comma, up to the end of the text. -/
inductive OpenMembers (Scalar : Text → Prop) : List Text → List (Text × Text) → Text → Prop
  | none : OpenMembers Scalar [] [] []
  | more {key raw : Text} {entries : List (Text × Text)} {scalars scalars' : List Text}
      {s s' s'' u : Text} : Derives Scalar (.member key raw) scalars s s' →
      Blanks s' (',' :: s'') → Blanks s'' u → OpenMembers Scalar scalars' entries u →
      OpenMembers Scalar (scalars ++ scalars') ((key, raw) :: entries) s

/-- **An object cut off** behind its opening brace or behind a comma. -/
inductive CutText (Scalar : Text → Prop) : List Text → List (Text × Text) → Text → Prop
  | cut {entries : List (Text × Text)} {scalars : List Text} {text s s' : Text} :
      Blanks text ('{' :: s) → Blanks s s' → OpenMembers Scalar scalars entries s' →
      CutText Scalar scalars entries text

namespace ObjectText

variable {Scalar Scalar' : Text → Prop} {scalars scalars' : List Text}
  {entries entries' : List (Text × Text)} {text : Text}

theorem mono (h : ObjectText Scalar scalars entries text) (hscalar : ∀ w ∈ scalars, Scalar' w) :
    ObjectText Scalar' scalars entries text := by
  cases h with
  | empty hopen hclose hend => exact .empty hopen hclose hend
  | members hopen hb hmembers hend => exact .members hopen hb (hmembers.mono hscalar) hend

theorem scalars_mem (h : ObjectText Scalar scalars entries text) : ∀ w ∈ scalars, Scalar w := by
  cases h with
  | empty => simp
  | members _ _ hmembers => exact hmembers.scalars_mem

theorem runs (hruns : Runs Scalar) (h : ObjectText Scalar scalars entries text) :
    runsFrom .between text = scalars := by
  cases h with
  | empty hopen hclose hend =>
    rw [hopen.runsFrom, runsFrom_separator (by decide) rfl, hclose.runsFrom,
      runsFrom_separator (by decide) rfl, hend.runsFrom]
    rfl
  | members hopen hb hmembers hend =>
    rw [hopen.runsFrom, runsFrom_separator (by decide) rfl, hb.runsFrom,
      hmembers.runs hruns trivial, hend.runsFrom, runsFrom, List.append_nil]
    all_goals simp

/-- **The text determines the scalar tokens.** -/
theorem scalars_unique (hruns : Runs Scalar) (h : ObjectText Scalar scalars entries text)
    (h' : ObjectText Scalar scalars' entries' text) : scalars = scalars' :=
  (h.runs hruns).symm.trans (h'.runs hruns)

end ObjectText

/-! ## The last character tells a cut object from a complete one -/

/-- The last character that is not blank. -/
def lastSign (s : Text) : Option Char := (s.reverse.dropWhile isBlank).head?

section LastSign

variable {s t : Text} {c : Char}

theorem lastSign_suffix (h : t <:+ s) (ht : lastSign t = some c) : lastSign s = some c := by
  obtain ⟨front, rfl⟩ := h
  unfold lastSign at ht ⊢
  rw [List.reverse_append, List.dropWhile_append]
  split
  · next hempty =>
    rw [List.isEmpty_iff.mp hempty] at ht
    cases ht
  · rw [List.head?_append, ht]
    rfl

theorem lastSign_cons (hb : Blanks t []) (hc : isBlank c = false) :
    lastSign (c :: t) = some c := by
  obtain ⟨b, rfl, hblank⟩ := hb.exists_append
  have hpassed : (b.reverse ++ [c]).dropWhile isBlank = [c] := by
    rw [List.dropWhile_append_of_pos (by simpa using hblank)]
    simp [hc]
  unfold lastSign
  rw [List.append_nil, List.reverse_cons, hpassed]
  rfl

end LastSign

section Exclusive

variable {Scalar Scalar' : Text → Prop} {scalars scalars' : List Text}
  {entries entries' : List (Text × Text)} {s t text : Text}

theorem Derives.members_closed {part : Part} (h : Derives Scalar part scalars s t)
    (hpart : part = .members entries) : ('}' :: t) <:+ s := by
  induction h generalizing entries with
  | string | scalar | emptyArray | array | emptyObject | object | lastItem | item | member =>
    cases hpart
  | lastMember hmember hb => exact hb.suffix.trans hmember.suffix
  | moreMembers hmember hb hb' _ _ ih =>
    exact ((ih rfl).trans hb'.suffix).trans
      ((List.suffix_cons ..).trans (hb.suffix.trans hmember.suffix))

theorem ObjectText.lastSign_eq (h : ObjectText Scalar scalars entries text) :
    lastSign text = some '}' := by
  cases h with
  | empty hopen hclose hend =>
    exact lastSign_suffix ((hclose.suffix.trans (List.suffix_cons ..)).trans hopen.suffix)
      (lastSign_cons hend rfl)
  | members hopen hb hmembers hend =>
    have hclosed := (hmembers.members_closed rfl).trans hb.suffix
    exact lastSign_suffix ((hclosed.trans (List.suffix_cons ..)).trans hopen.suffix)
      (lastSign_cons hend rfl)

theorem OpenMembers.lastSign_eq (h : OpenMembers Scalar scalars entries s) :
    s = [] ∨ lastSign s = some ',' := by
  induction h with
  | none => exact .inl rfl
  | @more key raw entries scalars scalars' s s' s'' u hmember hb hb' _ ih =>
    right
    have hcomma : (',' :: s'') <:+ s := hb.suffix.trans hmember.suffix
    rcases ih with rfl | hlast
    · exact lastSign_suffix hcomma (lastSign_cons hb' rfl)
    · exact lastSign_suffix (hb'.suffix.trans ((List.suffix_cons ..).trans hcomma)) hlast

theorem CutText.lastSign_ne (h : CutText Scalar scalars entries text) :
    lastSign text ≠ some '}' := by
  obtain ⟨hopen, hb, hmembers⟩ := h
  rcases hmembers.lastSign_eq with rfl | hlast
  · rw [lastSign_suffix hopen.suffix (lastSign_cons hb rfl)]
    decide
  · rw [lastSign_suffix ((hb.suffix.trans (List.suffix_cons ..)).trans hopen.suffix) hlast]
    decide

/-- **A cut object is not complete.** -/
theorem CutText.not_objectText (h : CutText Scalar scalars entries text) :
    ¬ ObjectText Scalar' scalars' entries' text :=
  fun hobject => h.lastSign_ne hobject.lastSign_eq

end Exclusive

end JsonGrammar
