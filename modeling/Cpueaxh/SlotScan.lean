/-
# Scans of a table of slots

A scan goes over `n` slots in order and visits the wanted entries that it finds.  A visit
may change every slot, also those before and behind the cursor.  A scan may have a rule
that ends it early; `walk` has none, and `limited` ends after a number of visits.

The results say which entries a scan visits, and that a limited scan is the walk up to
the point where its visits are used up.
-/
import Mathlib.Data.List.FinRange
import Mathlib.Tactic.Common

namespace SlotScan

variable {n : ℕ} {α σ : Type}

/-- How a scan sees the slots of a state, and what its visits do. -/
structure Visitor (n : ℕ) (α σ : Type) where
  slot : σ → Fin n → Option α
  wanted : α → Bool
  visit : Fin n → α → σ → σ

/-- The state that a scan has reached, and the entries visited so far. -/
abbrev Progress (n : ℕ) (α σ : Type) : Type := σ × List (Fin n × α)

/-- The wanted entry of a slot. -/
def Visitor.found (v : Visitor n α σ) (s : σ) (i : Fin n) : Option α :=
  (v.slot s i).filter v.wanted

/-- Pass one slot. -/
def Visitor.pass (v : Visitor n α σ) (p : Progress n α σ) (i : Fin n) : Progress n α σ :=
  match v.found p.1 i with
  | some a => (v.visit i a p.1, p.2 ++ [(i, a)])
  | none => p

/-- The first `k` slots, ended early by `stop`. -/
def Visitor.scan (v : Visitor n α σ) (stop : Progress n α σ → Bool) (s : σ) (k : ℕ) :
    Progress n α σ :=
  ((List.finRange n).take k).foldl (fun p i => if stop p then p else v.pass p i) (s, [])

/-- The first `k` slots. -/
def Visitor.walk (v : Visitor n α σ) (s : σ) (k : ℕ) : Progress n α σ :=
  v.scan (fun _ => false) s k

/-- The first `k` slots, as long as there were fewer than `limit` visits. -/
def Visitor.limited (v : Visitor n α σ) (limit : ℕ) (s : σ) (k : ℕ) : Progress n α σ :=
  v.scan (fun p => decide (limit ≤ p.2.length)) s k

variable {v : Visitor n α σ} {stop : Progress n α σ → Bool} {s : σ}

/-! ## One slot -/

@[simp] theorem scan_zero : v.scan stop s 0 = (s, []) := rfl

theorem scan_succ {k : ℕ} (hk : k < n) :
    v.scan stop s (k + 1) =
      if stop (v.scan stop s k) then v.scan stop s k
      else v.pass (v.scan stop s k) ⟨k, hk⟩ := by
  have htake : (List.finRange n).take (k + 1) = (List.finRange n).take k ++ [⟨k, hk⟩] := by
    rw [List.take_succ_eq_append_getElem (by simpa using hk)]
    simp
  unfold Visitor.scan
  rw [htake, List.foldl_append, List.foldl_cons, List.foldl_nil]

/-- Behind the last slot nothing happens any more. -/
theorem scan_eq_of_le {k : ℕ} (hk : ¬ k < n) : v.scan stop s (k + 1) = v.scan stop s k := by
  have hall : ∀ m, n ≤ m → (List.finRange n).take m = List.finRange n := fun m hm =>
    List.take_of_length_le (by simpa using hm)
  unfold Visitor.scan
  rw [hall (k + 1) (by omega), hall k (by omega)]

theorem walk_succ {k : ℕ} (hk : k < n) :
    v.walk s (k + 1) = v.pass (v.walk s k) ⟨k, hk⟩ := by
  simp [Visitor.walk, scan_succ hk]

theorem limited_succ {limit k : ℕ} (hk : k < n) :
    v.limited limit s (k + 1) =
      if limit ≤ (v.limited limit s k).2.length then v.limited limit s k
      else v.pass (v.limited limit s k) ⟨k, hk⟩ := by
  unfold Visitor.limited
  rw [scan_succ hk]
  exact if_congr decide_eq_true_iff rfl rfl

theorem pass_of_found {p : Progress n α σ} {i : Fin n} {a : α} (h : v.found p.1 i = some a) :
    v.pass p i = (v.visit i a p.1, p.2 ++ [(i, a)]) := by
  simp only [Visitor.pass, h]

theorem pass_of_not_found {p : Progress n α σ} {i : Fin n} (h : v.found p.1 i = none) :
    v.pass p i = p := by
  simp only [Visitor.pass, h]

theorem pass_visited (p : Progress n α σ) (i : Fin n) :
    (v.pass p i).2 = p.2 ++ ((v.found p.1 i).map fun a => (i, a)).toList := by
  unfold Visitor.pass
  cases v.found p.1 i <;> simp

/-- A slot adds at most one visit. -/
theorem length_pass_le (p : Progress n α σ) (i : Fin n) :
    p.2.length ≤ (v.pass p i).2.length ∧ (v.pass p i).2.length ≤ p.2.length + 1 := by
  rw [pass_visited]
  cases v.found p.1 i <;> simp

/-- A slot without a visit leaves everything as it is. -/
theorem pass_eq_of_length {p : Progress n α σ} {i : Fin n}
    (h : (v.pass p i).2.length = p.2.length) : v.pass p i = p := by
  cases hfound : v.found p.1 i with
  | none => exact pass_of_not_found hfound
  | some a => simp [pass_of_found hfound] at h

/-! ## Invariants -/

/-- **Invariant rule.**  What the visits keep holds after any number of slots. -/
theorem scan_invariant (inv : σ → Prop)
    (hvisit : ∀ t i a, inv t → v.found t i = some a → inv (v.visit i a t)) (hs : inv s)
    (k : ℕ) : inv (v.scan stop s k).1 := by
  induction k with
  | zero => exact hs
  | succ k ih =>
    by_cases hk : k < n
    · rw [scan_succ hk]
      split_ifs
      · exact ih
      · cases hfound : v.found (v.scan stop s k).1 ⟨k, hk⟩ with
        | none =>
          rw [pass_of_not_found hfound]
          exact ih
        | some a =>
          rw [pass_of_found hfound]
          exact hvisit _ _ _ ih hfound
    · rw [scan_eq_of_le hk]
      exact ih

/-- A later state of a scan is reached from an earlier one by visits. -/
theorem scan_relation (rel : σ → σ → Prop) (hrefl : ∀ t, rel t t)
    (htrans : ∀ t u w, rel t u → rel u w → rel t w) (hvisit : ∀ t i a, rel t (v.visit i a t))
    {k m : ℕ} (hkm : k ≤ m) : rel (v.scan stop s k).1 (v.scan stop s m).1 := by
  induction m, hkm using Nat.le_induction with
  | base => exact hrefl _
  | succ m _ ih =>
    by_cases hm : m < n
    · rw [scan_succ hm]
      split_ifs
      · exact ih
      · cases hfound : v.found (v.scan stop s m).1 ⟨m, hm⟩ with
        | none =>
          rw [pass_of_not_found hfound]
          exact ih
        | some a =>
          rw [pass_of_found hfound]
          exact htrans _ _ _ ih (hvisit _ _ _)
    · rw [scan_eq_of_le hm]
      exact ih

/-! ## What a scan visits -/

/-- The entry of a slot is visited when the cursor is there and the scan goes on. -/
theorem mem_scan {k : ℕ} {i : Fin n} {a : α} :
    (i, a) ∈ (v.scan stop s k).2 ↔
      i.val < k ∧ stop (v.scan stop s i) = false ∧ v.found (v.scan stop s i).1 i = some a := by
  induction k with
  | zero => simp
  | succ k ih =>
    by_cases hk : k < n
    · rw [scan_succ hk]
      by_cases hi : i.val = k
      · obtain rfl : i = ⟨k, hk⟩ := Fin.ext hi
        cases hstop : stop (v.scan stop s k) <;> simp [ih, pass_visited, Option.map_eq_some_iff]
      · have hne : ∀ b : α, (i, a) ≠ (⟨k, hk⟩, b) := fun b h =>
          hi (congrArg (fun q : Fin n × α => q.1.val) h)
        have hlt : i.val < k + 1 ↔ i.val < k := by omega
        rw [hlt]
        split_ifs
        · exact ih
        · rw [pass_visited, List.mem_append, ih]
          cases v.found (v.scan stop s k).1 ⟨k, hk⟩ <;> simp [hne]
    · have hlt : i.val < k + 1 ↔ i.val < k := by omega
      rw [scan_eq_of_le hk, ih, hlt]

/-- The slots of the visits increase. -/
theorem scan_sorted (k : ℕ) : ((v.scan stop s k).2.map Prod.fst).Pairwise (· < ·) := by
  induction k with
  | zero => simp
  | succ k ih =>
    by_cases hk : k < n
    · rw [scan_succ hk]
      split_ifs
      · exact ih
      · rw [pass_visited, List.map_append]
        refine List.pairwise_append.mpr ⟨ih, ?_, ?_⟩
        · cases v.found (v.scan stop s k).1 ⟨k, hk⟩ <;> simp
        · intro i hi j hj
          obtain ⟨⟨i, a⟩, hmem, rfl⟩ := List.mem_map.mp hi
          have hik : i.val < k := (mem_scan.mp hmem).1
          cases hfound : v.found (v.scan stop s k).1 ⟨k, hk⟩ with
          | none => simp [hfound] at hj
          | some b =>
            obtain rfl : j = ⟨k, hk⟩ := by simpa [hfound] using hj
            exact hik
    · rw [scan_eq_of_le hk]
      exact ih

/-- No slot is visited twice. -/
theorem scan_nodup (k : ℕ) : ((v.scan stop s k).2.map Prod.fst).Nodup :=
  (scan_sorted k).imp fun hlt => hlt.ne

/-! ## Limits -/

/-- Up to the limit the scan is the walk. -/
theorem limited_eq_walk {limit k : ℕ} (h : (v.walk s k).2.length ≤ limit) :
    v.limited limit s k = v.walk s k := by
  induction k with
  | zero => rfl
  | succ k ih =>
    by_cases hk : k < n
    · rw [walk_succ hk] at h ⊢
      have hmono := (length_pass_le (v := v) (v.walk s k) ⟨k, hk⟩).1
      rw [limited_succ hk, ih (by omega)]
      split_ifs with hlimit
      · exact (pass_eq_of_length (by omega)).symm
      · rfl
    · unfold Visitor.limited Visitor.walk at *
      rw [scan_eq_of_le hk] at h ⊢
      rw [scan_eq_of_le hk]
      exact ih h

/-- Once the visits are used up, the scan stays where it is. -/
theorem limited_stays {limit k m : ℕ} (h : (v.limited limit s k).2.length = limit)
    (hkm : k ≤ m) : v.limited limit s m = v.limited limit s k := by
  induction m, hkm using Nat.le_induction with
  | base => rfl
  | succ m _ ih =>
    by_cases hm : m < n
    · rw [limited_succ hm, ih, if_pos h.ge]
    · rw [← ih]
      exact scan_eq_of_le hm

/-- A limited scan is the walk, or the walk up to where its visits were used up. -/
theorem limited_cases (v : Visitor n α σ) (s : σ) (limit k : ℕ) :
    (v.limited limit s k = v.walk s k ∧ (v.walk s k).2.length < limit) ∨
      ∃ m ≤ k, v.limited limit s k = v.walk s m ∧ (v.walk s m).2.length = limit := by
  induction k with
  | zero =>
    rcases Nat.eq_zero_or_pos limit with h | h
    · exact .inr ⟨0, le_rfl, rfl, h.symm⟩
    · exact .inl ⟨rfl, h⟩
  | succ k ih =>
    rcases ih with ⟨heq, hlt⟩ | ⟨m, hm, heq, hlength⟩
    · by_cases hk : k < n
      · have hle := (length_pass_le (v := v) (v.walk s k) ⟨k, hk⟩).2
        rw [← walk_succ hk] at hle
        have hsame : v.limited limit s (k + 1) = v.walk s (k + 1) := limited_eq_walk (by omega)
        rcases Nat.lt_or_eq_of_le (show (v.walk s (k + 1)).2.length ≤ limit by omega)
          with h | h
        · exact .inl ⟨hsame, h⟩
        · exact .inr ⟨k + 1, le_rfl, hsame, h⟩
      · unfold Visitor.limited Visitor.walk at *
        rw [scan_eq_of_le hk, scan_eq_of_le hk]
        exact .inl ⟨heq, hlt⟩
    · have hused : (v.limited limit s k).2.length = limit := heq ▸ hlength
      exact .inr ⟨m, by omega, (limited_stays hused (Nat.le_succ k)).trans heq, hlength⟩

end SlotScan
