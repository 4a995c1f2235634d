/-
# Ordered tables of half-open intervals

A table is a list of entries of any type `β`; `lo` and `hi` read the interval
`[lo s, hi s)` of an entry in a linear order.  A table is *arranged* when every
entry starts no earlier, and no earlier than the end, of every entry before it.
Empty intervals are allowed, so an entry whose end is meaningless can sit in an
arranged table without covering anything.

The results are about looking a point up after an edit: an arranged table has
at most one entry over a point, and replacing one entry by a list of entries
inside it changes the lookup only at the points which that entry covers.
-/
import Mathlib.Order.Lattice
import Mathlib.Order.Nat
import Mathlib.Data.List.Pairwise

namespace IntervalTable

variable {α β : Type*} [LinearOrder α] (lo hi : β → α)

/-- The entry `s` covers the point `x`. -/
def Covers (s : β) (x : α) : Prop := lo s ≤ x ∧ x < hi s

instance (s : β) (x : α) : Decidable (Covers lo hi s x) :=
  inferInstanceAs (Decidable (_ ∧ _))

/-- Every entry starts at or after the start and the end of the entries before. -/
def Arranged (l : List β) : Prop :=
  l.Pairwise fun s t => lo s ≤ lo t ∧ hi s ≤ lo t

/-- The first entry over a point. -/
def lookup (l : List β) (x : α) : Option β :=
  l.find? fun s => decide (Covers lo hi s x)

variable {lo hi}

/-! ## At most one entry covers a point -/

/-- An entry that stands before another one does not share a point with it. -/
theorem not_covers_of_le {s t : β} {x : α} (hle : hi s ≤ lo t) (ht : Covers lo hi t x) :
    ¬ Covers lo hi s x :=
  fun hs => absurd (lt_of_lt_of_le hs.2 hle) (not_lt_of_ge ht.1)

/-- In an arranged table two entries over one point are the same entry. -/
theorem Arranged.eq_of_covers {l : List β} (h : Arranged lo hi l) {s t : β} {x : α}
    (hs : s ∈ l) (ht : t ∈ l) (hsx : Covers lo hi s x) (htx : Covers lo hi t x) : s = t := by
  induction l with
  | nil => cases hs
  | cons a l ih =>
    obtain ⟨ha, hl⟩ := List.pairwise_cons.mp h
    rcases List.mem_cons.mp hs with rfl | hs'
    · rcases List.mem_cons.mp ht with rfl | ht'
      · rfl
      · exact absurd hsx (not_covers_of_le (ha t ht').2 htx)
    · rcases List.mem_cons.mp ht with rfl | ht'
      · exact absurd htx (not_covers_of_le (ha s hs').2 hsx)
      · exact ih hl hs' ht'

/-- Lookup answers with a member that covers the point. -/
theorem lookup_sound {l : List β} {s : β} {x : α} (h : lookup lo hi l x = some s) :
    s ∈ l ∧ Covers lo hi s x :=
  ⟨List.mem_of_find?_eq_some h, by simpa using List.find?_some h⟩

/-- In an arranged table lookup finds exactly the entry over the point. -/
theorem Arranged.lookup_eq_some_iff {l : List β} (h : Arranged lo hi l) {s : β} {x : α} :
    lookup lo hi l x = some s ↔ s ∈ l ∧ Covers lo hi s x := by
  refine ⟨lookup_sound, fun ⟨hs, hx⟩ => ?_⟩
  cases hl : lookup lo hi l x with
  | none =>
    have := List.find?_eq_none.mp hl s hs
    simp [hx] at this
  | some t =>
    obtain ⟨ht, htx⟩ := lookup_sound hl
    rw [h.eq_of_covers ht hs htx hx]

/-- Lookup fails exactly where no entry covers. -/
theorem lookup_eq_none_iff {l : List β} {x : α} :
    lookup lo hi l x = none ↔ ∀ s ∈ l, ¬ Covers lo hi s x := by
  simp [lookup, List.find?_eq_none]

theorem lookup_append (l m : List β) (x : α) :
    lookup lo hi (l ++ m) x = (lookup lo hi l x).or (lookup lo hi m x) :=
  List.find?_append

/-! ## Replacing one entry -/

/-- A list of entries inside the interval of `s` may stand in its place. -/
theorem Arranged.splice {pre segs post : List β} {s : β}
    (h : Arranged lo hi (pre ++ s :: post)) (hsegs : Arranged lo hi segs)
    (hin : ∀ t ∈ segs, lo s ≤ lo t ∧ lo t ≤ hi s ∧ hi t ≤ hi s) :
    Arranged lo hi (pre ++ segs ++ post) := by
  obtain ⟨hpre, hspost, hcross⟩ := List.pairwise_append.mp h
  obtain ⟨hs, hpost⟩ := List.pairwise_cons.mp hspost
  rw [List.append_assoc]
  refine List.pairwise_append.mpr ⟨hpre, List.pairwise_append.mpr ⟨hsegs, hpost, ?_⟩, ?_⟩
  · intro t ht u hu
    obtain ⟨-, h2, h3⟩ := hin t ht
    exact ⟨h2.trans (hs u hu).2, h3.trans (hs u hu).2⟩
  · intro p hp u hu
    obtain ⟨h1, h2⟩ := hcross p hp s (List.mem_cons_self ..)
    rcases List.mem_append.mp hu with hu | hu
    · exact ⟨h1.trans (hin u hu).1, h2.trans (hin u hu).1⟩
    · exact hcross p hp u (List.mem_cons_of_mem _ hu)

/-- After the replacement the points of `s` are looked up in its substitutes,
and every other point where it was before. -/
theorem Arranged.lookup_splice {pre segs post : List β} {s : β}
    (h : Arranged lo hi (pre ++ s :: post))
    (hin : ∀ t ∈ segs, lo s ≤ lo t ∧ lo t ≤ hi s ∧ hi t ≤ hi s) (x : α) :
    lookup lo hi (pre ++ segs ++ post) x =
      if Covers lo hi s x then lookup lo hi segs x
      else lookup lo hi (pre ++ s :: post) x := by
  obtain ⟨-, hspost, hcross⟩ := List.pairwise_append.mp h
  obtain ⟨hs, -⟩ := List.pairwise_cons.mp hspost
  simp only [lookup_append]
  by_cases hx : Covers lo hi s x
  · have hpre : lookup lo hi pre x = none := lookup_eq_none_iff.mpr fun p hp =>
      not_covers_of_le (hcross p hp s (List.mem_cons_self ..)).2 hx
    have hpost : lookup lo hi post x = none := lookup_eq_none_iff.mpr fun u hu hux =>
      not_covers_of_le (hs u hu).2 hux hx
    rw [if_pos hx, hpre, hpost, Option.none_or, Option.or_none]
  · have hsegs : lookup lo hi segs x = none := lookup_eq_none_iff.mpr fun t ht htx =>
      hx ⟨(hin t ht).1.trans htx.1, lt_of_lt_of_le htx.2 (hin t ht).2.2⟩
    have hcons : lookup lo hi (s :: post) x = lookup lo hi post x := by
      simp [lookup, hx]
    rw [if_neg hx, hsegs, hcons, Option.or_none]

/-! ## Inserting an entry -/

/-- An entry that fits between two parts of an arranged table may be inserted. -/
theorem Arranged.insert {pre post : List β} {s : β} (h : Arranged lo hi (pre ++ post))
    (hpre : ∀ p ∈ pre, lo p ≤ lo s ∧ hi p ≤ lo s)
    (hpost : ∀ t ∈ post, lo s ≤ lo t ∧ hi s ≤ lo t) :
    Arranged lo hi (pre ++ s :: post) := by
  obtain ⟨h1, h2, h3⟩ := List.pairwise_append.mp h
  refine List.pairwise_append.mpr ⟨h1, List.pairwise_cons.mpr ⟨hpost, h2⟩, ?_⟩
  intro p hp u hu
  rcases List.mem_cons.mp hu with rfl | hu
  · exact hpre p hp
  · exact h3 p hp u hu

/-- After an insertion the points of the new entry find it, and every other
point finds what it found before. -/
theorem Arranged.lookup_insert {pre post : List β} {s : β}
    (h : Arranged lo hi (pre ++ s :: post)) (x : α) :
    lookup lo hi (pre ++ s :: post) x =
      if Covers lo hi s x then some s else lookup lo hi (pre ++ post) x := by
  by_cases hx : Covers lo hi s x
  · rw [if_pos hx]
    exact h.lookup_eq_some_iff.mpr ⟨by simp, hx⟩
  · rw [if_neg hx, lookup_append, lookup_append]
    have hcons : lookup lo hi (s :: post) x = lookup lo hi post x := by
      simp [lookup, hx]
    rw [hcons]

end IntervalTable
