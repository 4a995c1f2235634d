/-
# Programs over an interface

A piece of code that reaches the machine through an interface only is a tree: it
either returns, or calls an operation of the interface and goes on with the answer.
An interpreter gives each operation its effect on a state, and `run` executes the
tree.  Every such tree is finite along each branch, so every program terminates.

The rules carry a fact about single operations over to whole programs: an invariant
that the operations keep, and a simulation between two interpreters.  Both come with
a condition on the operations that the run really calls.
-/
import Mathlib.Tactic.Common

/-- A program that calls operations `o : Op`, is answered by a `Reply o`, and
returns a value of type `α`. -/
inductive Program (Op : Type) (Reply : Op → Type) (α : Type) where
  | ret (a : α)
  | call (o : Op) (next : Reply o → Program Op Reply α)

namespace Program

variable {Op : Type} {Reply : Op → Type} {α β : Type} {σ τ : Type}

/-- Sequential composition. -/
def bind : Program Op Reply α → (α → Program Op Reply β) → Program Op Reply β
  | ret a, f => f a
  | call o next, f => call o fun r => (next r).bind f

instance : Monad (Program Op Reply) where
  pure := ret
  bind := bind

/-- The program that calls one operation and returns its answer. -/
def perform (o : Op) : Program Op Reply (Reply o) := call o ret

/-- The same program over a larger interface. -/
def lift {Op' : Type} {Reply' : Op' → Type} (f : Op → Op') (g : ∀ o, Reply' (f o) → Reply o) :
    Program Op Reply α → Program Op' Reply' α
  | ret a => ret a
  | call o next => call (f o) fun r => (next (g o r)).lift f g

/-- The effect of each operation on a state, with its answer. -/
abbrev Interpreter (σ : Type) (Op : Type) (Reply : Op → Type) : Type :=
  (o : Op) → σ → Reply o × σ

/-- Execute a program. -/
def run (interp : Interpreter σ Op Reply) : Program Op Reply α → σ → α × σ
  | ret a, s => (a, s)
  | call o next, s => run interp (next (interp o s).1) (interp o s).2

/-- Each operation that the program calls meets `cond` in the state in which it is
called. -/
def Along (interp : Interpreter σ Op Reply) (cond : Op → σ → Prop) :
    Program Op Reply α → σ → Prop
  | ret _, _ => True
  | call o next, s => cond o s ∧ Along interp cond (next (interp o s).1) (interp o s).2

variable {interp : Interpreter σ Op Reply} {interp' : Interpreter τ Op Reply}
variable {cond : Op → σ → Prop}

@[simp] theorem run_ret (a : α) (s : σ) :
    run interp (ret a : Program Op Reply α) s = (a, s) := rfl

@[simp] theorem run_pure (a : α) (s : σ) :
    run interp (pure a : Program Op Reply α) s = (a, s) := rfl

@[simp] theorem run_call (o : Op) (next : Reply o → Program Op Reply α) (s : σ) :
    run interp (call o next) s = run interp (next (interp o s).1) (interp o s).2 := rfl

@[simp] theorem run_perform (o : Op) (s : σ) :
    run interp (perform o : Program Op Reply (Reply o)) s = interp o s := rfl

/-- A composition runs its parts in turn. -/
@[simp] theorem run_bind (p : Program Op Reply α) (f : α → Program Op Reply β) (s : σ) :
    run interp (p >>= f) s = run interp (f (run interp p s).1) (run interp p s).2 := by
  show run interp (p.bind f) s = _
  induction p generalizing s with
  | ret a => rfl
  | call o next ih => exact ih _ _

/-- A lifted program runs as the program does, when its operations do. -/
theorem run_lift {Op' : Type} {Reply' : Op' → Type} {f : Op → Op'}
    {g : ∀ o, Reply' (f o) → Reply o} {interp₂ : Interpreter σ Op' Reply'}
    (hop : ∀ o s, g o (interp₂ (f o) s).1 = (interp o s).1 ∧
      (interp₂ (f o) s).2 = (interp o s).2)
    (p : Program Op Reply α) (s : σ) : run interp₂ (p.lift f g) s = run interp p s := by
  induction p generalizing s with
  | ret a => rfl
  | call o next ih =>
    show run interp₂ ((next (g o (interp₂ (f o) s).1)).lift f g) (interp₂ (f o) s).2 = _
    rw [(hop o s).1, (hop o s).2]
    exact ih _ _

/-- **Invariant rule.**  What the operations keep under `cond` holds after every
program whose operations meet `cond`. -/
theorem run_invariant (inv : σ → Prop)
    (hop : ∀ o s, inv s → cond o s → inv (interp o s).2)
    (p : Program Op Reply α) (s : σ) (hs : inv s) (hp : Along interp cond p s) :
    inv (run interp p s).2 := by
  induction p generalizing s with
  | ret a => exact hs
  | call o next ih => exact ih _ _ (hop o s hs hp.1) hp.2

/-- What every operation keeps holds after every program. -/
theorem run_invariant_always (inv : σ → Prop) (hop : ∀ o s, inv s → inv (interp o s).2)
    (p : Program Op Reply α) (s : σ) (hs : inv s) : inv (run interp p s).2 := by
  induction p generalizing s with
  | ret a => exact hs
  | call o next ih => exact ih _ _ (hop o s hs)

/-- **Simulation rule.**  If each operation that meets `cond` gives the same answer on
both sides and keeps the states related, a program returns the same value on both
sides and ends in related states. -/
theorem run_simulation (rel : σ → τ → Prop)
    (hop : ∀ o s t, rel s t → cond o s →
      (interp o s).1 = (interp' o t).1 ∧ rel (interp o s).2 (interp' o t).2)
    (p : Program Op Reply α) (s : σ) (t : τ) (hst : rel s t) (hp : Along interp cond p s) :
    (run interp p s).1 = (run interp' p t).1 ∧
      rel (run interp p s).2 (run interp' p t).2 := by
  induction p generalizing s t with
  | ret a => exact ⟨rfl, hst⟩
  | call o next ih =>
    obtain ⟨hreply, hrel⟩ := hop o s t hst hp.1
    rw [run_call, run_call, ← hreply]
    exact ih _ _ _ hrel hp.2

/-- A condition that every operation meets holds along every program. -/
theorem along_of_forall (h : ∀ o s, cond o s) (p : Program Op Reply α) (s : σ) :
    Along interp cond p s := by
  induction p generalizing s with
  | ret a => trivial
  | call o next ih => exact ⟨h o s, ih _ _⟩

end Program
