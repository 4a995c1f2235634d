/-
# Objects that are laid out member by member

A writer puts each member of an object, and each item of an array, behind the same blanks,
and a comma in front of every one but the first.  Such a text is a value of the grammar as
soon as the texts of its values are.  A value whose text shows an escape that stands for no
character is none, and neither is what it is laid out in.
-/
import Cpueaxh.JsonGrammar

namespace JsonGrammar

/-! ## Texts of values -/

/-- A text that is a value wherever it stands. -/
def Readable (v : Text) : Prop :=
  ∃ scalars, ∀ t, Follow t → Derives LooseScalar .value scalars (v ++ t) t

/-- A text whose runs end with it, and which is a value or shows an empty run. -/
structure WrittenValue (v : Text) : Prop where
  runs : ∀ t, Follow t →
    runsFrom .between (v ++ t) = runsFrom .between v ++ runsFrom .between t
  reads : Readable v ∨ [] ∈ runsFrom .between v

/-- A character that stands for itself in a string. -/
def isPlain (c : Char) : Bool := c ≠ '"' && c ≠ '\\' && 0x20 ≤ c.toNat

section Values

variable {v w s t : Text}

theorem Readable.written (h : Readable v) : WrittenValue v := by
  obtain ⟨scalars, hv⟩ := id h
  have hruns : ∀ t, Follow t → runsFrom .between (v ++ t) = scalars ++ runsFrom .between t :=
    fun t ht => (hv t ht).runs runs_looseScalar ht
  have hself : runsFrom .between v = scalars := by
    have h := hruns [] .nil
    rwa [List.append_nil, runsFrom, List.append_nil] at h
    simp
  exact ⟨fun t ht => hself ▸ hruns t ht, .inl h⟩

/-- The scalar tokens of a derivation are no empty runs. -/
theorem Derives.nil_not_mem {part : Part} {scalars : List Text}
    (h : Derives LooseScalar part scalars s t) : [] ∉ scalars := by
  intro hmem
  obtain ⟨-, c, rest, heq, -⟩ := runs_looseScalar _ (h.scalars_mem _ hmem)
  cases heq

/-- A text that is written is a value exactly when it shows no empty run. -/
theorem WrittenValue.readable_iff (h : WrittenValue v) :
    Readable v ↔ [] ∉ runsFrom .between v := by
  constructor
  · rintro ⟨scalars, hv⟩ hnil
    have hderived := hv [] .nil
    have hruns := hderived.runs runs_looseScalar .nil
    rw [List.append_nil] at hruns
    rw [hruns] at hnil
    exact hderived.nil_not_mem (by simpa [runsFrom] using hnil)
  · intro hnil
    exact h.reads.resolve_right hnil

theorem readable_scalar (h : LooseScalar w) : Readable w := ⟨[w], fun _ _ => .scalar h⟩

theorem stringBody_plain (h : ∀ c ∈ v, isPlain c = true) (t : Text) :
    StringBody (v ++ '"' :: t) v t := by
  induction v with
  | nil => exact .close
  | cons c v ih =>
    have hc := h c (List.mem_cons_self ..)
    simp only [isPlain, Bool.and_eq_true, decide_eq_true_eq] at hc
    exact .plain hc.1.1 hc.1.2 hc.2 (ih fun d hd => h d (List.mem_cons_of_mem _ hd))

theorem stringToken_plain (h : ∀ c ∈ v, isPlain c = true) (t : Text) :
    StringToken ('"' :: v ++ '"' :: t) v t := .quote (stringBody_plain h t)

theorem blanks_append (h : ∀ c ∈ w, isBlank c = true) (t : Text) : Blanks (w ++ t) t := by
  induction w with
  | nil => exact .none
  | cons c w ih =>
    exact .more (h c (List.mem_cons_self ..)) (ih fun d hd => h d (List.mem_cons_of_mem _ hd))

theorem follow_append (h : ∀ c ∈ w, isBlank c = true) (ht : Follow t) : Follow (w ++ t) := by
  cases w with
  | nil => exact ht
  | cons c w => exact .cons (isDelimiter_of_isBlank (h c (List.mem_cons_self ..)))

end Values

/-! ## Layouts -/

/-- A member behind its blanks: the key in quotes, a colon and a blank, and the value. -/
def layoutMember (indent : Text) (member : Text × Text) : Text :=
  indent ++ '"' :: member.1 ++ ['"', ':', ' '] ++ member.2

/-- The texts behind the first, each with its comma. -/
def layoutRest (texts : List Text) : Text := texts.flatMap fun text => ',' :: text

/-- An object of a first member and others. -/
def layoutObject (indent close : Text) (first : Text × Text) (rest : List (Text × Text)) : Text :=
  '{' :: layoutMember indent first ++ layoutRest (rest.map (layoutMember indent)) ++ close ++ ['}']

/-- An array of a first item and others. -/
def layoutArray (indent close first : Text) (rest : List Text) : Text :=
  '[' :: indent ++ first ++ layoutRest (rest.map (indent ++ ·)) ++ close ++ [']']

section Layouts

variable {indent close : Text} {first : Text × Text} {rest : List (Text × Text)} {t : Text}

theorem follow_layoutRest (texts : List Text) (ht : Follow t) : Follow (layoutRest texts ++ t) := by
  cases texts with
  | nil => exact ht
  | cons text texts => exact .cons rfl

theorem layoutRest_cons (text : Text) (texts : List Text) :
    layoutRest (text :: texts) = ',' :: text ++ layoutRest texts := rfl

theorem layoutObject_append (indent close : Text) (first : Text × Text)
    (rest : List (Text × Text)) (t : Text) :
    layoutObject indent close first rest ++ t =
      '{' :: (indent ++ ('"' :: first.1 ++ ['"', ':', ' '] ++ first.2 ++
        (layoutRest (rest.map (layoutMember indent)) ++ (close ++ '}' :: t)))) := by
  simp only [layoutObject, layoutMember, List.cons_append, List.append_assoc, List.nil_append]

/-- A member with a plain key and a value is one of the grammar. -/
theorem derives_member {member : Text × Text} {scalars : List Text}
    (hkey : ∀ c ∈ member.1, isPlain c = true)
    (hvalue : Derives LooseScalar .value scalars (member.2 ++ t) t) :
    Derives LooseScalar (.member member.1 member.2) scalars
      ('"' :: member.1 ++ ['"', ':', ' '] ++ member.2 ++ t) t := by
  have hblank : Blanks (' ' :: (member.2 ++ t)) (member.2 ++ t) := .more rfl .none
  have htoken := stringToken_plain hkey (':' :: ' ' :: (member.2 ++ t))
  have h := Derives.member htoken .none hblank hvalue
  simpa using h

/-- Members that are laid out are those of the grammar. -/
theorem derives_members (hindent : ∀ c ∈ indent, isBlank c = true)
    (hclose : ∀ c ∈ close, isBlank c = true)
    (hkeys : ∀ m ∈ first :: rest, ∀ c ∈ m.1, isPlain c = true)
    (hvalues : ∀ m ∈ first :: rest, Readable m.2) :
    ∃ scalars, ∀ t, Derives LooseScalar (.members (first :: rest)) scalars
      ('"' :: first.1 ++ ['"', ':', ' '] ++ first.2 ++
        (layoutRest (rest.map (layoutMember indent)) ++ (close ++ '}' :: t))) t := by
  induction rest generalizing first with
  | nil =>
    obtain ⟨scalars, hvalue⟩ := hvalues first (List.mem_cons_self ..)
    have hkey := hkeys first (List.mem_cons_self ..)
    refine ⟨scalars, fun t => ?_⟩
    have hend : Follow (close ++ '}' :: t) := follow_append hclose (.cons rfl)
    exact .lastMember (derives_member hkey (hvalue _ hend)) (blanks_append hclose _)
  | cons second rest ih =>
    obtain ⟨scalars, hvalue⟩ := hvalues first (List.mem_cons_self ..)
    have hkey := hkeys first (List.mem_cons_self ..)
    obtain ⟨scalars', hrest⟩ := ih (fun m hm => hkeys m (List.mem_cons_of_mem _ hm))
      (fun m hm => hvalues m (List.mem_cons_of_mem _ hm))
    refine ⟨scalars ++ scalars', fun t => ?_⟩
    have hend : Follow (close ++ '}' :: t) := follow_append hclose (.cons rfl)
    have hmember := derives_member hkey (hvalue _ (follow_layoutRest
      ((second :: rest).map (layoutMember indent)) hend))
    have hblanks := blanks_append hindent ('"' :: second.1 ++ ['"', ':', ' '] ++ second.2 ++
      (layoutRest (rest.map (layoutMember indent)) ++ (close ++ '}' :: t)))
    have hcomma : layoutRest ((second :: rest).map (layoutMember indent)) ++ (close ++ '}' :: t) =
        ',' :: (indent ++ ('"' :: second.1 ++ ['"', ':', ' '] ++ second.2 ++
          (layoutRest (rest.map (layoutMember indent)) ++ (close ++ '}' :: t)))) := by
      rw [List.map_cons, layoutRest_cons, layoutMember]
      simp only [List.cons_append, List.append_assoc]
    rw [hcomma] at hmember ⊢
    exact .moreMembers hmember .none hblanks (hrest t)

/-- **An object that is laid out** is a value when its values are. -/
theorem readable_layoutObject (hindent : ∀ c ∈ indent, isBlank c = true)
    (hclose : ∀ c ∈ close, isBlank c = true)
    (hkeys : ∀ m ∈ first :: rest, ∀ c ∈ m.1, isPlain c = true)
    (hnodup : ((first :: rest).map Prod.fst).Nodup)
    (hvalues : ∀ m ∈ first :: rest, Readable m.2) :
    Readable (layoutObject indent close first rest) := by
  obtain ⟨scalars, hmembers⟩ := derives_members hindent hclose hkeys hvalues
  refine ⟨scalars, fun t _ => ?_⟩
  have hblanks := blanks_append hindent ('"' :: first.1 ++ ['"', ':', ' '] ++ first.2 ++
    (layoutRest (rest.map (layoutMember indent)) ++ (close ++ '}' :: t)))
  rw [layoutObject_append]
  exact .object hblanks hnodup (hmembers t)

/-! ### The runs of a layout -/

theorem runsFrom_member {member : Text × Text} (hindent : ∀ c ∈ indent, isBlank c = true)
    (hkey : ∀ c ∈ member.1, isPlain c = true) (t : Text) :
    runsFrom .between (layoutMember indent member ++ t) = runsFrom .between (member.2 ++ t) := by
  have hblanks := blanks_append hindent ('"' :: member.1 ++ '"' :: ':' :: ' ' :: (member.2 ++ t))
  have htoken := stringToken_plain hkey (':' :: ' ' :: (member.2 ++ t))
  have htext : layoutMember indent member ++ t =
      indent ++ ('"' :: member.1 ++ '"' :: ':' :: ' ' :: (member.2 ++ t)) := by
    simp only [layoutMember, List.cons_append, List.append_assoc, List.nil_append]
  rw [htext, hblanks.runsFrom, htoken.runsFrom, runsFrom_separator (by decide) rfl,
    runsFrom_separator (by decide) rfl]

/-- Members behind commas have the runs of their values. -/
theorem runsFrom_rest (hindent : ∀ c ∈ indent, isBlank c = true)
    (hkeys : ∀ m ∈ rest, ∀ c ∈ m.1, isPlain c = true) (hwritten : ∀ m ∈ rest, WrittenValue m.2)
    (ht : Follow t) :
    runsFrom .between (layoutRest (rest.map (layoutMember indent)) ++ t) =
      rest.flatMap (fun m => runsFrom .between m.2) ++ runsFrom .between t := by
  induction rest with
  | nil => rfl
  | cons member rest ih =>
    have hrest := ih (fun m hm => hkeys m (List.mem_cons_of_mem _ hm))
      (fun m hm => hwritten m (List.mem_cons_of_mem _ hm))
    have hmember := (hwritten member (List.mem_cons_self ..)).runs _
      (follow_layoutRest (rest.map (layoutMember indent)) ht)
    rw [List.map_cons, layoutRest_cons, List.append_assoc, List.cons_append,
      runsFrom_separator (by decide) rfl,
      runsFrom_member hindent (hkeys member (List.mem_cons_self ..)), hmember, hrest,
      List.flatMap_cons, List.append_assoc]

theorem runsFrom_layoutObject (hindent : ∀ c ∈ indent, isBlank c = true)
    (hclose : ∀ c ∈ close, isBlank c = true)
    (hkeys : ∀ m ∈ first :: rest, ∀ c ∈ m.1, isPlain c = true)
    (hwritten : ∀ m ∈ first :: rest, WrittenValue m.2) (t : Text) :
    runsFrom .between (layoutObject indent close first rest ++ t) =
      (first :: rest).flatMap (fun m => runsFrom .between m.2) ++ runsFrom .between t := by
  have hend : Follow (close ++ '}' :: t) := follow_append hclose (.cons rfl)
  have hlast := (blanks_append hclose ('}' :: t)).runsFrom
  have hfirst := (hwritten first (List.mem_cons_self ..)).runs _
    (follow_layoutRest (rest.map (layoutMember indent)) hend)
  have hrest := runsFrom_rest hindent (fun m hm => hkeys m (List.mem_cons_of_mem _ hm))
    (fun m hm => hwritten m (List.mem_cons_of_mem _ hm)) hend
  have htext : layoutObject indent close first rest ++ t =
      '{' :: (layoutMember indent first ++
        (layoutRest (rest.map (layoutMember indent)) ++ (close ++ '}' :: t))) := by
    simp only [layoutObject, List.cons_append, List.append_assoc, List.nil_append]
  rw [htext, runsFrom_separator (by decide) rfl,
    runsFrom_member hindent (hkeys first (List.mem_cons_self ..)), hfirst, hrest, hlast,
    runsFrom_separator (by decide) rfl, List.flatMap_cons, List.append_assoc]

/-- **An object that is laid out is written**: where a value in it is none, it shows an empty
run. -/
theorem written_layoutObject (hindent : ∀ c ∈ indent, isBlank c = true)
    (hclose : ∀ c ∈ close, isBlank c = true)
    (hkeys : ∀ m ∈ first :: rest, ∀ c ∈ m.1, isPlain c = true)
    (hnodup : ((first :: rest).map Prod.fst).Nodup)
    (hwritten : ∀ m ∈ first :: rest, WrittenValue m.2) :
    WrittenValue (layoutObject indent close first rest) := by
  have hruns := runsFrom_layoutObject hindent hclose hkeys hwritten
  have hself : runsFrom .between (layoutObject indent close first rest) =
      (first :: rest).flatMap fun m => runsFrom .between m.2 := by
    simpa [runsFrom] using hruns []
  refine ⟨fun t _ => hself ▸ hruns t, ?_⟩
  by_cases hall : ∀ m ∈ first :: rest, Readable m.2
  · exact .inl (readable_layoutObject hindent hclose hkeys hnodup hall)
  · right
    obtain ⟨m, hm, hbad⟩ := not_forall₂.mp hall
    rw [hself, List.mem_flatMap]
    exact ⟨m, hm, (hwritten m hm).reads.resolve_left hbad⟩

end Layouts

/-! ## Arrays and whole texts -/

section Arrays

variable {indent close first : Text} {rest : List Text} {t : Text}

/-- Items that are laid out are those of the grammar. -/
theorem derives_items (hindent : ∀ c ∈ indent, isBlank c = true)
    (hclose : ∀ c ∈ close, isBlank c = true) (hvalues : ∀ v ∈ first :: rest, Readable v) :
    ∃ scalars, ∀ t, Derives LooseScalar .items scalars
      (first ++ (layoutRest (rest.map (indent ++ ·)) ++ (close ++ ']' :: t))) t := by
  induction rest generalizing first with
  | nil =>
    obtain ⟨scalars, hvalue⟩ := hvalues first (List.mem_cons_self ..)
    refine ⟨scalars, fun t => ?_⟩
    have hend : Follow (close ++ ']' :: t) := follow_append hclose (.cons rfl)
    exact .lastItem (hvalue _ hend) (blanks_append hclose _)
  | cons second rest ih =>
    obtain ⟨scalars, hvalue⟩ := hvalues first (List.mem_cons_self ..)
    obtain ⟨scalars', hrest⟩ := ih fun v hv => hvalues v (List.mem_cons_of_mem _ hv)
    refine ⟨scalars ++ scalars', fun t => ?_⟩
    have hend : Follow (close ++ ']' :: t) := follow_append hclose (.cons rfl)
    have hitem := hvalue _ (follow_layoutRest ((second :: rest).map (indent ++ ·)) hend)
    have hblanks := blanks_append hindent
      (second ++ (layoutRest (rest.map (indent ++ ·)) ++ (close ++ ']' :: t)))
    have hcomma : layoutRest ((second :: rest).map (indent ++ ·)) ++ (close ++ ']' :: t) =
        ',' :: (indent ++ (second ++
          (layoutRest (rest.map (indent ++ ·)) ++ (close ++ ']' :: t)))) := by
      rw [List.map_cons, layoutRest_cons]
      simp only [List.cons_append, List.append_assoc]
    rw [hcomma] at hitem ⊢
    exact .item hitem .none hblanks (hrest t)

theorem layoutArray_append (indent close first : Text) (rest : List Text) (t : Text) :
    layoutArray indent close first rest ++ t =
      '[' :: (indent ++ (first ++ (layoutRest (rest.map (indent ++ ·)) ++ (close ++ ']' :: t)))) := by
  simp only [layoutArray, List.cons_append, List.append_assoc, List.nil_append]

/-- **An array that is laid out** is a value when its items are. -/
theorem readable_layoutArray (hindent : ∀ c ∈ indent, isBlank c = true)
    (hclose : ∀ c ∈ close, isBlank c = true) (hvalues : ∀ v ∈ first :: rest, Readable v) :
    Readable (layoutArray indent close first rest) := by
  obtain ⟨scalars, hitems⟩ := derives_items hindent hclose hvalues
  refine ⟨scalars, fun t _ => ?_⟩
  rw [layoutArray_append]
  exact .array (blanks_append hindent _) (hitems t)

theorem runsFrom_items (hindent : ∀ c ∈ indent, isBlank c = true)
    (hwritten : ∀ v ∈ rest, WrittenValue v) (ht : Follow t) :
    runsFrom .between (layoutRest (rest.map (indent ++ ·)) ++ t) =
      rest.flatMap (runsFrom .between) ++ runsFrom .between t := by
  induction rest with
  | nil => rfl
  | cons v rest ih =>
    have hrest := ih fun u hu => hwritten u (List.mem_cons_of_mem _ hu)
    have hv := (hwritten v (List.mem_cons_self ..)).runs _
      (follow_layoutRest (rest.map (indent ++ ·)) ht)
    have hblanks := (blanks_append hindent (v ++ (layoutRest (rest.map (indent ++ ·)) ++ t))).runsFrom
    rw [List.map_cons, layoutRest_cons, List.append_assoc, List.cons_append,
      runsFrom_separator (by decide) rfl, List.append_assoc, hblanks, hv, hrest,
      List.flatMap_cons, List.append_assoc]

theorem runsFrom_layoutArray (hindent : ∀ c ∈ indent, isBlank c = true)
    (hclose : ∀ c ∈ close, isBlank c = true) (hwritten : ∀ v ∈ first :: rest, WrittenValue v)
    (t : Text) :
    runsFrom .between (layoutArray indent close first rest ++ t) =
      (first :: rest).flatMap (runsFrom .between) ++ runsFrom .between t := by
  have hend : Follow (close ++ ']' :: t) := follow_append hclose (.cons rfl)
  have hlast := (blanks_append hclose (']' :: t)).runsFrom
  have hfirst := (hwritten first (List.mem_cons_self ..)).runs _
    (follow_layoutRest (rest.map (indent ++ ·)) hend)
  have hrest := runsFrom_items hindent (fun v hv => hwritten v (List.mem_cons_of_mem _ hv)) hend
  rw [layoutArray_append, runsFrom_separator (by decide) rfl,
    (blanks_append hindent _).runsFrom, hfirst, hrest, hlast,
    runsFrom_separator (by decide) rfl, List.flatMap_cons, List.append_assoc]

/-- **An array that is laid out is written.** -/
theorem written_layoutArray (hindent : ∀ c ∈ indent, isBlank c = true)
    (hclose : ∀ c ∈ close, isBlank c = true) (hwritten : ∀ v ∈ first :: rest, WrittenValue v) :
    WrittenValue (layoutArray indent close first rest) := by
  have hruns := runsFrom_layoutArray hindent hclose hwritten
  have hself : runsFrom .between (layoutArray indent close first rest) =
      (first :: rest).flatMap (runsFrom .between) := by
    simpa [runsFrom] using hruns []
  refine ⟨fun t _ => hself ▸ hruns t, ?_⟩
  by_cases hall : ∀ v ∈ first :: rest, Readable v
  · exact .inl (readable_layoutArray hindent hclose hall)
  · right
    obtain ⟨v, hv, hbad⟩ := not_forall₂.mp hall
    rw [hself, List.mem_flatMap]
    exact ⟨v, hv, (hwritten v hv).reads.resolve_left hbad⟩

end Arrays

section Texts

variable {indent close b : Text} {first : Text × Text} {rest : List (Text × Text)}

theorem blanks_nil (h : ∀ c ∈ b, isBlank c = true) : Blanks b [] := by
  have hb := blanks_append h []
  rwa [List.append_nil] at hb

/-- **An object that is laid out** is a text of one object when its values are values. -/
theorem objectText_layout (hindent : ∀ c ∈ indent, isBlank c = true)
    (hclose : ∀ c ∈ close, isBlank c = true) (hb : ∀ c ∈ b, isBlank c = true)
    (hkeys : ∀ m ∈ first :: rest, ∀ c ∈ m.1, isPlain c = true)
    (hvalues : ∀ m ∈ first :: rest, Readable m.2) :
    ∃ scalars, ObjectText LooseScalar scalars (first :: rest)
      (layoutObject indent close first rest ++ b) := by
  obtain ⟨scalars, hmembers⟩ := derives_members hindent hclose hkeys hvalues
  refine ⟨scalars, ?_⟩
  rw [layoutObject_append]
  exact .members .none (blanks_append hindent _) (hmembers b) (blanks_nil hb)

/-- Where a value is none, the text is no object, and it is not cut off either. -/
theorem not_text_layout (hindent : ∀ c ∈ indent, isBlank c = true)
    (hclose : ∀ c ∈ close, isBlank c = true) (hb : ∀ c ∈ b, isBlank c = true)
    (hkeys : ∀ m ∈ first :: rest, ∀ c ∈ m.1, isPlain c = true)
    (hwritten : ∀ m ∈ first :: rest, WrittenValue m.2)
    (hbad : ¬ ∀ m ∈ first :: rest, Readable m.2) {scalars : List Text}
    {entries : List (Text × Text)} :
    ¬ (ObjectText LooseScalar scalars entries (layoutObject indent close first rest ++ b) ∨
      CutText LooseScalar scalars entries (layoutObject indent close first rest ++ b)) := by
  rintro (hobject | hcut)
  · have hruns := runsFrom_layoutObject hindent hclose hkeys hwritten b
    rw [hobject.runs runs_looseScalar] at hruns
    obtain ⟨m, hm, hm'⟩ := not_forall₂.mp hbad
    have hnil : [] ∈ scalars := by
      rw [hruns]
      exact List.mem_append_left _ (List.mem_flatMap.mpr
        ⟨m, hm, (hwritten m hm).reads.resolve_left hm'⟩)
    obtain ⟨-, c, w, heq, -⟩ := runs_looseScalar _ (hobject.scalars_mem _ hnil)
    cases heq
  · -- the last character is the closing brace
    have hclosed : lastSign (layoutObject indent close first rest ++ b) = some '}' := by
      refine lastSign_suffix ?_ (lastSign_cons (blanks_nil hb) rfl)
      rw [layoutObject_append]
      exact ⟨'{' :: (indent ++ ('"' :: first.1 ++ ['"', ':', ' '] ++ first.2 ++
        (layoutRest (rest.map (layoutMember indent)) ++ close))), by simp⟩
    have hopen := hcut.lastSign_ne
    exact hopen hclosed

end Texts

end JsonGrammar
