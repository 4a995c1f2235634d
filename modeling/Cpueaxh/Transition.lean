/-
# Runs of a deterministic machine

A machine is a step function `step : σ → ι → σ` over inputs `ι`.  A run is the
list of the inputs it takes, so every state reached by a run is the last state of
one of its prefixes, and a statement about the last state of every run is a
statement about every state reached.

`Along cond` says that a condition holds at each step, of the state in which the
step is taken and of its input.  The two rules are the invariant of a run whose
steps all meet a condition, and the simulation of one machine by another.
-/
import Mathlib.Tactic.Common

namespace Transition

variable {σ τ ι : Type*}

/-- The state after the inputs `l`. -/
def run (step : σ → ι → σ) (s : σ) (l : List ι) : σ := l.foldl step s

/-- Each step of the run meets `cond` in the state in which it is taken. -/
def Along (step : σ → ι → σ) (cond : σ → ι → Prop) : σ → List ι → Prop
  | _, [] => True
  | s, i :: l => cond s i ∧ Along step cond (step s i) l

variable {step : σ → ι → σ} {cond : σ → ι → Prop}

@[simp] theorem run_nil (s : σ) : run step s [] = s := rfl

@[simp] theorem run_cons (s : σ) (i : ι) (l : List ι) :
    run step s (i :: l) = run step (step s i) l := rfl

theorem run_append (s : σ) (l m : List ι) :
    run step s (l ++ m) = run step (run step s l) m := List.foldl_append

@[simp] theorem along_nil (s : σ) : Along step cond s [] := trivial

@[simp] theorem along_cons (s : σ) (i : ι) (l : List ι) :
    Along step cond s (i :: l) ↔ cond s i ∧ Along step cond (step s i) l := Iff.rfl

/-- A run meets a condition exactly when both of its parts do. -/
theorem along_append (s : σ) (l m : List ι) :
    Along step cond s (l ++ m) ↔
      Along step cond s l ∧ Along step cond (run step s l) m := by
  induction l generalizing s with
  | nil => simp
  | cons i l ih => simp [ih, and_assoc]

/-- A condition on the inputs alone holds along a run when it holds of each. -/
theorem along_of_forall {p : ι → Prop} (l : List ι) (h : ∀ i ∈ l, p i) (s : σ) :
    Along step (fun _ i => p i) s l := by
  induction l generalizing s with
  | nil => trivial
  | cons i l ih =>
    exact ⟨h i (List.mem_cons_self ..), ih (fun j hj => h j (List.mem_cons_of_mem _ hj)) _⟩

/-- **Invariant rule.**  What every step under `cond` preserves holds in the last
state of every run along `cond`. -/
theorem run_invariant (inv : σ → Prop)
    (hstep : ∀ s i, inv s → cond s i → inv (step s i))
    (l : List ι) (s : σ) (hs : inv s) (hl : Along step cond s l) : inv (run step s l) := by
  induction l generalizing s with
  | nil => exact hs
  | cons i l ih => exact ih _ (hstep s i hs hl.1) hl.2

/-- What every step preserves holds in the last state of every run. -/
theorem run_invariant_always (inv : σ → Prop) (hstep : ∀ s i, inv s → inv (step s i))
    (l : List ι) (s : σ) (hs : inv s) : inv (run step s l) := by
  induction l generalizing s with
  | nil => exact hs
  | cons i l ih => exact ih _ (hstep s i hs)

/-- If each step keeps an invariant exactly when it meets a condition, the runs with the
invariant in all their states are the runs along the condition. -/
theorem forall_prefix_iff_along (inv : σ → Prop)
    (hstep : ∀ s i, inv s → (inv (step s i) ↔ cond s i)) (s : σ) (hs : inv s) (l : List ι) :
    (∀ m, m <+: l → inv (run step s m)) ↔ Along step cond s l := by
  induction l generalizing s with
  | nil => simp [hs]
  | cons i l ih =>
    rw [along_cons, ← hstep s i hs]
    constructor
    · intro hall
      have hfirst : inv (step s i) :=
        hall [i] ((List.prefix_cons_inj i).mpr List.nil_prefix)
      refine ⟨hfirst, (ih (step s i) hfirst).mp fun m hm => ?_⟩
      exact hall (i :: m) ((List.prefix_cons_inj i).mpr hm)
    · rintro ⟨hfirst, hrest⟩ m hm
      cases m with
      | nil => exact hs
      | cons j m =>
        have hij := List.cons_prefix_cons.mp hm
        obtain rfl := hij.1
        exact (ih _ hfirst).mpr hrest m hij.2

/-- The same beside an invariant that every step keeps. -/
theorem forall_prefix_iff_along_of (good inv : σ → Prop)
    (hgood : ∀ s i, good s → good (step s i))
    (hstep : ∀ s i, good s → inv s → (inv (step s i) ↔ cond s i)) (s : σ) (hs : good s)
    (hinv : inv s) (l : List ι) :
    (∀ m, m <+: l → inv (run step s m)) ↔ Along step cond s l := by
  rw [← forall_prefix_iff_along (fun s => good s ∧ inv s) ?_ s ⟨hs, hinv⟩ l]
  · refine forall₂_congr fun m _ => (and_iff_right ?_).symm
    exact run_invariant_always good hgood m s hs
  · rintro s i ⟨hs, hinv⟩
    rw [← hstep s i hs hinv]
    exact and_iff_right (hgood s i hs)

/-- **Simulation rule.**  If related states stay related after each step under
`cond`, the runs on the same inputs end in related states. -/
theorem run_simulation {step' : τ → ι → τ} (rel : σ → τ → Prop)
    (hstep : ∀ s t i, rel s t → cond s i → rel (step s i) (step' t i))
    (l : List ι) (s : σ) (t : τ) (hst : rel s t) (hl : Along step cond s l) :
    rel (run step s l) (run step' t l) := by
  induction l generalizing s t with
  | nil => exact hst
  | cons i l ih => exact ih _ _ (hstep s t i hst hl.1) hl.2

end Transition
