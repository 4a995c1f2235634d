/-
# Two programs in related states

Two programs over one interface, started in related states, return related values and
end in related states.  The programs may differ: what one of them reads may be of use to
the other, and an answer need not be the same on both sides.

The rules follow the composition of the programs.  A rule for a single operation is a
matter of the interface.
-/
import Cpueaxh.Program

namespace Program

variable {Op : Type} {Reply : Op → Type} {α β α' β' : Type} {σ : Type}
variable {interp : Interpreter σ Op Reply} {rel : σ → σ → Prop}

/-- From related states the programs return values with `post`, in related states. -/
def Related (interp : Interpreter σ Op Reply) (rel : σ → σ → Prop) (post : α → β → Prop)
    (p : Program Op Reply α) (q : Program Op Reply β) : Prop :=
  ∀ s t, rel s t →
    post (p.run interp s).1 (q.run interp t).1 ∧ rel (p.run interp s).2 (q.run interp t).2

theorem Related.pure {post : α → β → Prop} {a : α} {b : β} (h : post a b) :
    Related interp rel post (Pure.pure a) (Pure.pure b) := fun _ _ hrel => ⟨h, hrel⟩

/-- **Composition.** -/
theorem Related.bind {mid : α → β → Prop} {post : α' → β' → Prop} {p : Program Op Reply α}
    {q : Program Op Reply β} {f : α → Program Op Reply α'} {g : β → Program Op Reply β'}
    (h : Related interp rel mid p q)
    (hnext : ∀ a b, mid a b → Related interp rel post (f a) (g b)) :
    Related interp rel post (p >>= f) (q >>= g) := by
  intro s t hrel
  obtain ⟨hmid, hrel'⟩ := h s t hrel
  rw [run_bind, run_bind]
  exact hnext _ _ hmid _ _ hrel'

/-- Composition with one value on both sides. -/
theorem Related.bind_eq {post : α' → β' → Prop} {p q : Program Op Reply α}
    {f : α → Program Op Reply α'} {g : α → Program Op Reply β'}
    (h : Related interp rel Eq p q) (hnext : ∀ a, Related interp rel post (f a) (g a)) :
    Related interp rel post (p >>= f) (q >>= g) := by
  apply h.bind
  rintro a _ rfl
  exact hnext a

end Program
