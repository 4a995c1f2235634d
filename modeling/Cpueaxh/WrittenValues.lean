/-
# The values of a failure record

What the writer makes of strings and numbers, for the reader.  A string in quotes is read
back as the same string when each control character in it has an escape of one letter; any
other control character is written by its code, which the reader takes for no escape.
Numbers and booleans are scalars.
-/
import Cpueaxh.FailureRecord
import Cpueaxh.JsonLayout

namespace Cpueaxh

open JsonGrammar

/-! ## Digits -/

section Digits

variable {c : Char} {base n : ℕ}

/-- The character of a digit stands for itself in a string, and is no line end. -/
theorem isPlain_digitChar (d : ℕ) : isPlain (Nat.digitChar d) = true := by
  by_cases hd : 16 ≤ d
  · rw [Nat.digitChar_eq_star.mpr hd]
    rfl
  · exact (show ∀ e < 16, isPlain (Nat.digitChar e) = true by decide) d (Nat.not_le.mp hd)

theorem isPlain_toDigits (hbase : 1 < base) (hc : c ∈ Nat.toDigits base n) : isPlain c = true := by
  induction n using Nat.strongRecOn with
  | _ n ih =>
    by_cases hn : n < base
    · rw [Nat.toDigits_of_lt_base hn, List.mem_singleton] at hc
      exact hc ▸ isPlain_digitChar n
    · rw [Nat.toDigits_of_base_le hbase (Nat.not_lt.mp hn), List.mem_append,
        List.mem_singleton] at hc
      rcases hc with hc | rfl
      · exact ih (n / base) (Nat.div_lt_self (by omega) hbase) hc
      · exact isPlain_digitChar _

theorem isPlain_hexText {width value : ℕ} (hc : c ∈ hexText width value) : isPlain c = true := by
  rcases List.mem_append.mp hc with hc | hc
  · rw [List.eq_of_mem_replicate hc]
    rfl
  · exact isPlain_toDigits (by decide) hc

theorem isPlain_hex64 {value : U64} (hc : c ∈ hex64 value) : isPlain c = true := by
  rcases List.mem_append.mp hc with hc | hc
  · exact List.all_eq_true.mp (show "0x".toList.all isPlain = true by decide) c hc
  · exact isPlain_hexText hc

theorem hex64_ne_nil (value : U64) : hex64 value ≠ [] := by
  simp [hex64]

theorem isDigits_decimalText (n : ℕ) : IsDigits (decimalText n) :=
  ⟨Nat.toDigits_ne_nil, fun _ hc => Nat.isDigit_of_mem_toDigits (by decide) (by decide) hc⟩

theorem decimalValue_decimalText (n : ℕ) : decimalValue (decimalText n) = n := by
  have h := @Nat.ofDigitChars_ten_toDigits n
  rwa [Nat.ofDigitChars_eq_foldl] at h

/-- **A number that is written** is an unsigned scalar. -/
theorem readable_decimalText (n : ℕ) : Readable (decimalText n) := by
  obtain ⟨hne, hall⟩ := isDigits_decimalText n
  obtain ⟨c, rest, heq⟩ := List.exists_cons_of_ne_nil hne
  have hstart : c.isDigit = true := hall c (heq ▸ List.mem_cons_self ..)
  refine readable_scalar ⟨fun d hd => not_isDelimiter_of_isDigit (hall d hd), .inr ⟨c, rest, heq, ?_⟩⟩
  simp [isNumberStart, hstart]

theorem readable_jsonBool (b : Bool) : Readable (jsonBool b) := by
  cases b
  · exact readable_scalar ⟨clear_of_any (by decide), .inl (.inr (.inl rfl))⟩
  · exact readable_scalar ⟨clear_of_any (by decide), .inl (.inl rfl)⟩

end Digits

/-! ## Strings in quotes -/

/-- A string as the writer puts it into a record. -/
def quoted (value : Text) : Text := '"' :: jsonEscape value ++ ['"']

/-- A character that is no control character, or one with an escape of one letter. -/
def isWritable (c : Char) : Bool :=
  0x20 ≤ c.toNat || c = Char.ofNat 8 || c = Char.ofNat 12 || c = '\n' || c = '\r' || c = '\t'

/-- A string that the reader can read back. -/
def Writable (value : Text) : Prop := ∀ c ∈ value, isWritable c = true

section Quoted

variable {c : Char} {value s t : Text}

theorem jsonEscape_cons (c : Char) (value : Text) :
    jsonEscape (c :: value) = jsonEscapeChar c ++ jsonEscape value := rfl

theorem jsonEscape_append (s t : Text) : jsonEscape (s ++ t) = jsonEscape s ++ jsonEscape t :=
  List.flatMap_append

theorem jsonEscapeChar_plain (hc : isPlain c = true) : jsonEscapeChar c = [c] := by
  simp only [isPlain, Bool.and_eq_true, decide_eq_true_eq] at hc
  obtain ⟨⟨hq, hb⟩, hlow⟩ := hc
  have hne : ∀ d : Char, d.toNat < 0x20 → c ≠ d := by
    rintro d hd rfl
    exact absurd hlow (Nat.not_le.mpr hd)
  unfold jsonEscapeChar
  rw [if_neg hb, if_neg hq, if_neg (hne _ (by decide)), if_neg (hne _ (by decide)),
    if_neg (hne _ (by decide)), if_neg (hne _ (by decide)), if_neg (hne _ (by decide)),
    if_neg (Nat.not_lt.mpr hlow)]

/-- A string of plain characters is written as it is. -/
theorem jsonEscape_plain (h : ∀ c ∈ value, isPlain c = true) : jsonEscape value = value := by
  induction value with
  | nil => rfl
  | cons c value ih =>
    rw [jsonEscape_cons, jsonEscapeChar_plain (h c (List.mem_cons_self ..)),
      ih fun d hd => h d (List.mem_cons_of_mem _ hd), List.singleton_append]

/-- What is written for a character: the character, an escape of one letter, or its code. -/
theorem jsonEscapeChar_cases (c : Char) :
    isPlain c = true ∧ jsonEscapeChar c = [c] ∨
      (∃ e, escaped e = some c ∧ isWritable c = true ∧ jsonEscapeChar c = ['\\', e]) ∨
      isWritable c = false ∧ jsonEscapeChar c = '\\' :: 'u' :: hexText 4 c.toNat := by
  by_cases hplain : isPlain c = true
  · exact .inl ⟨hplain, jsonEscapeChar_plain hplain⟩
  right
  unfold jsonEscapeChar
  split_ifs with hb hq h8 h12 hn hr ht hlow
  · exact .inl ⟨'\\', by rw [hb]; rfl, by rw [hb]; rfl, rfl⟩
  · exact .inl ⟨'"', by rw [hq]; rfl, by rw [hq]; rfl, rfl⟩
  · exact .inl ⟨'b', by rw [h8]; rfl, by rw [h8]; rfl, rfl⟩
  · exact .inl ⟨'f', by rw [h12]; rfl, by rw [h12]; rfl, rfl⟩
  · exact .inl ⟨'n', by rw [hn]; rfl, by rw [hn]; rfl, rfl⟩
  · exact .inl ⟨'r', by rw [hr]; rfl, by rw [hr]; rfl, rfl⟩
  · exact .inl ⟨'t', by rw [ht]; rfl, by rw [ht]; rfl, rfl⟩
  · refine .inr ⟨?_, rfl⟩
    simp [isWritable, h8, h12, hn, hr, ht, hlow]
  · exact absurd (by simp [isPlain, hb, hq, Nat.not_lt.mp hlow]) hplain

theorem isWritable_of_isPlain (h : isPlain c = true) : isWritable c = true := by
  simp only [isPlain, Bool.and_eq_true, decide_eq_true_eq] at h
  simp [isWritable, h.2]

/-- **A writable string** is read back. -/
theorem stringBody_jsonEscape (h : Writable value) (t : Text) :
    StringBody (jsonEscape value ++ '"' :: t) value t := by
  induction value with
  | nil => exact .close
  | cons c value ih =>
    have hrest := ih fun d hd => h d (List.mem_cons_of_mem _ hd)
    rw [jsonEscape_cons, List.append_assoc]
    rcases jsonEscapeChar_cases c with ⟨hplain, heq⟩ | ⟨e, he, -, heq⟩ | ⟨hbad, -⟩
    · rw [heq]
      simp only [isPlain, Bool.and_eq_true, decide_eq_true_eq] at hplain
      exact .plain hplain.1.1 hplain.1.2 hplain.2 hrest
    · rw [heq]
      exact .escape he hrest
    · exact absurd (h c (List.mem_cons_self ..)) (by simp [hbad])

theorem stringToken_quoted (h : Writable value) (t : Text) :
    StringToken (quoted value ++ t) value t := by
  have hbody := StringToken.quote (stringBody_jsonEscape h t)
  simpa [quoted] using hbody

theorem readable_quoted (h : Writable value) : Readable (quoted value) :=
  ⟨[], fun t _ => .string (stringToken_quoted h t)⟩

theorem runsFrom_plain (h : ∀ c ∈ s, isPlain c = true) (t : Text) :
    runsFrom .string (s ++ t) = runsFrom .string t := by
  induction s with
  | nil => rfl
  | cons c s ih =>
    have hc := h c (List.mem_cons_self ..)
    simp only [isPlain, Bool.and_eq_true, decide_eq_true_eq] at hc
    rw [List.cons_append, runsFrom, if_neg hc.1.1, if_neg hc.1.2,
      ih fun d hd => h d (List.mem_cons_of_mem _ hd)]

/-- Each character that is written by its code shows an empty run. -/
theorem runsFrom_jsonEscape (value t : Text) :
    runsFrom .string (jsonEscape value ++ t) =
      (value.filter (!isWritable ·)).map (fun _ => []) ++ runsFrom .string t := by
  induction value with
  | nil => rfl
  | cons c value ih =>
    rw [jsonEscape_cons, List.append_assoc]
    rcases jsonEscapeChar_cases c with ⟨hplain, heq⟩ | ⟨e, he, hw, heq⟩ | ⟨hbad, heq⟩
    · rw [heq, runsFrom_plain (by simpa using hplain), ih,
        List.filter_cons_of_neg (by simp [isWritable_of_isPlain hplain])]
    · rw [heq, List.cons_append, List.cons_append, List.nil_append, runsFrom,
        if_neg (by decide), if_pos rfl, runsFrom, if_pos (by rw [he]; rfl), ih,
        List.filter_cons_of_neg (by simp [hw])]
    · rw [heq, List.cons_append, List.cons_append, runsFrom, if_neg (by decide), if_pos rfl,
        runsFrom, if_neg (by decide), runsFrom_plain fun _ => isPlain_hexText, ih,
        List.filter_cons_of_pos (by simp [hbad])]
      rfl

theorem runsFrom_quoted (value t : Text) :
    runsFrom .between (quoted value ++ t) =
      (value.filter (!isWritable ·)).map (fun _ => []) ++ runsFrom .between t := by
  have htext : quoted value ++ t = '"' :: (jsonEscape value ++ '"' :: t) := by
    simp only [quoted, List.cons_append, List.append_assoc, List.nil_append]
  rw [htext, runsFrom, if_pos rfl, runsFrom_jsonEscape, runsFrom, if_pos rfl]

/-- **A string in quotes is written**: it is read back, or it shows an empty run. -/
theorem written_quoted (value : Text) : WrittenValue (quoted value) := by
  have hself : runsFrom .between (quoted value) =
      (value.filter (!isWritable ·)).map fun _ => [] := by
    simpa [runsFrom] using runsFrom_quoted value []
  refine ⟨fun t _ => hself ▸ runsFrom_quoted value t, ?_⟩
  by_cases h : Writable value
  · exact .inl (readable_quoted h)
  · right
    unfold Writable at h
    obtain ⟨c, hc, hbad⟩ := not_forall₂.mp h
    rw [hself, List.mem_map]
    exact ⟨c, List.mem_filter.mpr ⟨hc, by simpa using hbad⟩, rfl⟩

/-- **A string in quotes is a value** exactly when it is writable. -/
theorem readable_quoted_iff : Readable (quoted value) ↔ Writable value := by
  constructor
  · intro h c hc
    by_contra hbad
    obtain ⟨scalars, hv⟩ := h
    have hruns := (hv [] .nil).runs runs_looseScalar .nil
    rw [runsFrom_quoted] at hruns
    have hnil : ([] : Text) ∈ scalars := by
      have hmem : ([] : Text) ∈ (value.filter (!isWritable ·)).map (fun _ => ([] : Text)) :=
        List.mem_map.mpr ⟨c, List.mem_filter.mpr ⟨hc, by simpa using hbad⟩, rfl⟩
      have hboth := List.mem_append_left (runsFrom .between []) hmem
      rw [hruns] at hboth
      simpa [runsFrom] using hboth
    exact (hv [] .nil).nil_not_mem hnil
  · exact readable_quoted

end Quoted

end Cpueaxh
