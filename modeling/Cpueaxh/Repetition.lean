/-
# Repetitions with a count

A loop that runs its turn for a count, unless a turn fails or ends the repetition early.
A failed turn gives up: the turns before it have been made, and nothing of the failed one.

The results say which turns a loop makes, and that a loop that is started again behind
some of its turns ends as it would have ended.
-/
import Mathlib.Tactic.Common

namespace Repetition

variable {σ τ ε δ : Type}

/-- What a loop repeats, and when it ends early. -/
structure Body (σ ε : Type) where
  turn : σ → Except ε σ
  stop : σ → Bool

/-- At most `n` turns. -/
def Body.loop (b : Body σ ε) : ℕ → σ → Except ε σ
  | 0, s => .ok s
  | n + 1, s =>
    match b.turn s with
    | .error e => .error e
    | .ok t => if n = 0 ∨ b.stop t then .ok t else b.loop n t

/-- A repetition goes on behind `k` turns.  It is not asked before the first turn. -/
def Body.GoesOn (b : Body σ ε) (k : ℕ) (s : σ) : Prop := k = 0 ∨ b.stop s = false

/-- `k` turns lead from one state to another one. -/
inductive Body.Turns (b : Body σ ε) : ℕ → σ → σ → Prop where
  | zero (s : σ) : b.Turns 0 s s
  | succ {k : ℕ} {s t u : σ} (turns : b.Turns k s t) (goes : b.GoesOn k t)
      (turn : b.turn t = .ok u) : b.Turns (k + 1) s u

variable {b : Body σ ε}

/-- The turns from a state lead to one state. -/
theorem Turns.unique {k : ℕ} {s t u : σ} (h : b.Turns k s t) (h' : b.Turns k s u) : t = u := by
  induction h generalizing u with
  | zero =>
    cases h'
    rfl
  | succ _ _ turn ih =>
    cases h' with
    | succ turns' _ turn' =>
      rw [ih turns', turn'] at turn
      exact (Except.ok.inj turn).symm

/-- A turn before the others. -/
theorem Turns.cons {s t : σ} (hturn : b.turn s = .ok t) (hstop : b.stop t = false) {k : ℕ}
    {u : σ} (h : b.Turns k t u) : b.Turns (k + 1) s u := by
  induction h with
  | zero => exact .succ (.zero s) (.inl rfl) hturn
  | succ turns goes turn ih =>
    refine .succ (ih hturn hstop) (.inr ?_) turn
    cases goes with
    | inl hzero =>
      subst hzero
      cases turns
      exact hstop
    | inr hgoes => exact hgoes

theorem Turns.goesOn_cons {t u : σ} (hstop : b.stop t = false) {k : ℕ}
    (h : b.Turns k t u) (hgoes : b.GoesOn k u) : b.GoesOn (k + 1) u := by
  cases hgoes with
  | inl hzero =>
    subst hzero
    cases h
    exact .inr hstop
  | inr hgoes => exact .inr hgoes

/-- How a loop ends: behind the last turn, which is the one that the count or the stop
ends, or at a turn that fails. -/
inductive Body.Ends (b : Body σ ε) (n : ℕ) (s : σ) : Except ε σ → Prop where
  | done {k : ℕ} {t : σ} (turns : b.Turns k s t) (le : k ≤ n)
      (last : k = n ∨ ¬ b.GoesOn k t) : b.Ends n s (.ok t)
  | fails {k : ℕ} {t : σ} {e : ε} (turns : b.Turns k s t) (lt : k < n) (goes : b.GoesOn k t)
      (turn : b.turn t = .error e) : b.Ends n s (.error e)

/-- **Every loop** ends in one of the two ways. -/
theorem loop_ends (b : Body σ ε) (n : ℕ) : ∀ s, b.Ends n s (b.loop n s) := by
  induction n with
  | zero => exact fun s => .done (.zero s) (Nat.le_refl 0) (.inl rfl)
  | succ n ih =>
    intro s
    rw [Body.loop]
    cases hturn : b.turn s with
    | error e => exact .fails (.zero s) n.succ_pos (.inl rfl) hturn
    | ok t =>
      have hone : b.Turns 1 s t := .succ (.zero s) (.inl rfl) hturn
      simp only
      by_cases hlast : n = 0 ∨ b.stop t = true
      · rw [if_pos hlast]
        refine .done hone (by omega) ?_
        rcases hlast with rfl | hstop
        · exact .inl rfl
        · refine .inr fun hgoes => ?_
          rcases hgoes with hzero | hgoes
          · cases hzero
          · rw [hstop] at hgoes
            cases hgoes
      · rw [if_neg hlast]
        rw [not_or, Bool.not_eq_true] at hlast
        obtain ⟨hn, hstop⟩ := hlast
        cases hrest : b.loop n t with
        | ok u =>
          have hends := ih t
          rw [hrest] at hends
          cases hends with
          | done turns le last =>
            refine .done (Turns.cons hturn hstop turns) (by omega) ?_
            rcases last with rfl | hno
            · exact .inl rfl
            · exact .inr fun hgoes => hno (.inr (hgoes.resolve_left (by omega)))
        | error e =>
          have hends := ih t
          rw [hrest] at hends
          cases hends with
          | fails turns lt goes turn =>
            exact .fails (Turns.cons hturn hstop turns) (by omega)
              (Turns.goesOn_cons hstop turns goes) turn

/-! ## Starting again -/

/-- **A loop that is started again** behind some of its turns ends as it would have ended. -/
theorem loop_resume {k : ℕ} {s t : σ} (h : b.Turns k s t) (hgoes : b.GoesOn k t) {n : ℕ}
    (hn : k < n) : b.loop n s = b.loop (n - k) t := by
  induction h with
  | zero => rfl
  | @succ k s t u turns goes turn ih =>
    have hstop : b.stop u = false := hgoes.resolve_left (by omega)
    rw [ih goes (by omega)]
    obtain ⟨left, hleft⟩ : ∃ left, n - k = left + 1 := ⟨n - k - 1, by omega⟩
    rw [hleft, Body.loop, turn]
    simp only
    rw [if_neg (by rw [hstop]; simp; omega), show n - (k + 1) = left by omega]

/-! ## Two loops -/

section Simulation

variable {b' : Body τ δ} (rel : σ → τ → Prop)
  (hturn : ∀ s t s', rel s t → b.turn s = .ok s' → ∃ t', b'.turn t = .ok t' ∧ rel s' t')
  (hstop : ∀ s t, rel s t → b'.stop t = b.stop s)

include hturn hstop

/-- **Turns** that are made from one state are made from a related one. -/
theorem Turns.simulate {k : ℕ} {s s' : σ} (h : b.Turns k s s') {t : τ} (hrel : rel s t) :
    ∃ t', b'.Turns k t t' ∧ rel s' t' := by
  induction h with
  | zero => exact ⟨t, .zero t, hrel⟩
  | succ turns goes turn ih =>
    obtain ⟨t', hturns, hrel'⟩ := ih hrel
    obtain ⟨u', hu, hrelu⟩ := hturn _ _ _ hrel' turn
    refine ⟨u', .succ hturns ?_ hu, hrelu⟩
    exact goes.imp_right fun hgo => (hstop _ _ hrel').trans hgo

/-- **A loop** that is done from one state is done from a related one. -/
theorem loop_simulate (n : ℕ) : ∀ {s s' : σ} {t : τ}, rel s t → b.loop n s = .ok s' →
    ∃ t', b'.loop n t = .ok t' ∧ rel s' t' := by
  induction n with
  | zero =>
    intro s s' t hrel h
    cases h
    exact ⟨t, rfl, hrel⟩
  | succ n ih =>
    intro s s' t hrel h
    rw [Body.loop] at h
    cases hs : b.turn s with
    | error e =>
      rw [hs] at h
      cases h
    | ok u =>
      rw [hs] at h
      obtain ⟨u', hu', hrelu⟩ := hturn s t u hrel hs
      rw [Body.loop, hu']
      simp only at h ⊢
      rw [hstop u u' hrelu]
      split_ifs at h ⊢
      · cases h
        exact ⟨u', rfl, hrelu⟩
      · exact ih hrelu h

end Simulation

/-- What a map makes of the two ways to end. -/
def onBoth (f : ε → δ) (g : σ → τ) : Except ε σ → Except δ τ
  | .error e => .error (f e)
  | .ok s => .ok (g s)

/-- **A loop** under a map that its turns do not see. -/
theorem loop_map (f : ε → ε) (g : σ → σ) (hturn : ∀ s, b.turn (g s) = onBoth f g (b.turn s))
    (hstop : ∀ s, b.stop (g s) = b.stop s) (n : ℕ) : ∀ s,
    b.loop n (g s) = onBoth f g (b.loop n s) := by
  induction n with
  | zero => exact fun s => rfl
  | succ n ih =>
    intro s
    rw [Body.loop, Body.loop, hturn s]
    cases b.turn s with
    | error e => rfl
    | ok t =>
      simp only [onBoth]
      rw [hstop t]
      split_ifs
      · rfl
      · exact ih t

end Repetition
