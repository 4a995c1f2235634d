/-
# Traces of programs

The operations that a program calls, in order.  A simulation keeps them, and so a program
over two interpreters with the same answers calls the same operations.

Facts about the trace of a composed program come from its parts, in two ways: the trace
itself is that of the parts one behind the other, and a condition on the operations holds
along the program if it holds along the parts.
-/
import Cpueaxh.Program

namespace Program

variable {Op : Type} {Reply : Op → Type} {α β : Type} {σ τ : Type}

/-- The operations that a program calls, in order. -/
def calls (interp : Interpreter σ Op Reply) : Program Op Reply α → σ → List Op
  | ret _, _ => []
  | call o next, s => o :: calls interp (next (interp o s).1) (interp o s).2

/-- The program calls operations with some property only, whatever they answer. -/
def Within (allowed : Op → Prop) : Program Op Reply α → Prop
  | ret _ => True
  | call o next => allowed o ∧ ∀ r, Within allowed (next r)

variable {interp : Interpreter σ Op Reply} {interp' : Interpreter τ Op Reply}
variable {cond cond' : Op → σ → Prop} {allowed allowed' : Op → Prop}

@[simp] theorem calls_pure (a : α) (s : σ) :
    calls interp (pure a : Program Op Reply α) s = [] := rfl

@[simp] theorem calls_perform (o : Op) (s : σ) :
    calls interp (perform o : Program Op Reply (Reply o)) s = [o] := rfl

/-- A composition calls the operations of its parts in turn. -/
@[simp] theorem calls_bind (p : Program Op Reply α) (f : α → Program Op Reply β) (s : σ) :
    calls interp (p >>= f) s =
      calls interp p s ++ calls interp (f (run interp p s).1) (run interp p s).2 := by
  show calls interp (p.bind f) s = _
  induction p generalizing s with
  | ret a => rfl
  | call o next ih => exact congrArg (o :: ·) (ih _ _)

/-! ## Conditions along a program -/

@[simp] theorem along_pure (a : α) (s : σ) :
    Along interp cond (pure a : Program Op Reply α) s := trivial

theorem along_perform {o : Op} {s : σ} :
    Along interp cond (perform o : Program Op Reply (Reply o)) s ↔ cond o s :=
  ⟨And.left, fun h => ⟨h, trivial⟩⟩

/-- A condition holds along a composition if it holds along its parts. -/
theorem along_bind {p : Program Op Reply α} {f : α → Program Op Reply β} {s : σ} :
    Along interp cond (p >>= f) s ↔
      Along interp cond p s ∧ Along interp cond (f (run interp p s).1) (run interp p s).2 := by
  show Along interp cond (p.bind f) s ↔ _
  induction p generalizing s with
  | ret a => exact (and_iff_right trivial).symm
  | call o next ih => exact (and_congr_right fun _ => ih _).trans and_assoc.symm

theorem Along.mono {p : Program Op Reply α} {s : σ} (h : Along interp cond p s)
    (himp : ∀ o s, cond o s → cond' o s) : Along interp cond' p s := by
  induction p generalizing s with
  | ret a => trivial
  | call o next ih => exact ⟨himp _ _ h.1, ih _ h.2⟩

theorem Along.and {p : Program Op Reply α} {s : σ} (h : Along interp cond p s)
    (h' : Along interp cond' p s) : Along interp (fun o s => cond o s ∧ cond' o s) p s := by
  induction p generalizing s with
  | ret a => trivial
  | call o next ih => exact ⟨⟨h.1, h'.1⟩, ih _ h.2 h'.2⟩

/-- What holds of every operation in the trace. -/
theorem along_iff_calls {p : Program Op Reply α} {s : σ} :
    Along interp (fun o _ => allowed o) p s ↔ ∀ o ∈ calls interp p s, allowed o := by
  induction p generalizing s with
  | ret a => exact iff_of_true trivial fun o ho => absurd ho List.not_mem_nil
  | call o next ih =>
    rw [calls, List.forall_mem_cons]
    exact and_congr_right fun _ => ih _

/-! ## Programs with some operations only -/

theorem within_pure (a : α) : Within allowed (pure a : Program Op Reply α) := trivial

theorem within_perform {o : Op} (h : allowed o) :
    Within allowed (perform o : Program Op Reply (Reply o)) := ⟨h, fun _ => trivial⟩

theorem Within.bind {p : Program Op Reply α} {f : α → Program Op Reply β}
    (hp : Within allowed p) (hf : ∀ a, Within allowed (f a)) : Within allowed (p >>= f) := by
  show Within allowed (p.bind f)
  induction p with
  | ret a => exact hf a
  | call o next ih => exact ⟨hp.1, fun r => ih r (hp.2 r)⟩

theorem Within.mono {p : Program Op Reply α} (hp : Within allowed p)
    (himp : ∀ o, allowed o → allowed' o) : Within allowed' p := by
  induction p with
  | ret a => trivial
  | call o next ih => exact ⟨himp o hp.1, fun r => ih r (hp.2 r)⟩

/-- Each operation in the trace is one of those that the program has. -/
theorem Within.calls {p : Program Op Reply α} (hp : Within allowed p) {s : σ} :
    ∀ o ∈ calls interp p s, allowed o := by
  induction p generalizing s with
  | ret a => exact fun o ho => absurd ho List.not_mem_nil
  | call o next ih => exact List.forall_mem_cons.mpr ⟨hp.1, ih _ (hp.2 _)⟩

/-! ## Simulation -/

/-- **Simulation rule** for traces and conditions. -/
theorem calls_simulation (rel : σ → τ → Prop) {cond' : Op → τ → Prop}
    (hop : ∀ o s t, rel s t → (interp o s).1 = (interp' o t).1 ∧
      rel (interp o s).2 (interp' o t).2)
    (hcond : ∀ o s t, rel s t → (cond o s ↔ cond' o t))
    (p : Program Op Reply α) (s : σ) (t : τ) (hst : rel s t) :
    calls interp p s = calls interp' p t ∧ (Along interp cond p s ↔ Along interp' cond' p t) := by
  induction p generalizing s t with
  | ret a => exact ⟨rfl, Iff.rfl⟩
  | call o next ih =>
    obtain ⟨hreply, hrel⟩ := hop o s t hst
    obtain ⟨hcalls, halong⟩ := ih (interp' o t).1 _ _ hrel
    unfold calls Along
    rw [hreply]
    exact ⟨congrArg (o :: ·) hcalls, and_congr (hcond o s t hst) halong⟩

end Program
