/-
# Copies in turn and at once

A list of copies between places of a memory.  Carried out in turn, each copy reads what the
copies before it have written; carried out at once, all of them read the memory of the
beginning.  The two agree as long as no copy writes what a later one reads.
-/
import Mathlib.Data.List.Basic

namespace Copies

variable {M R W V : Type*} (read : M → R → V) (write : M → W → V → M)

/-- The memory behind some writes. -/
def writeAll (m : M) (writes : List (W × V)) : M :=
  writes.foldl (fun m w => write m w.1 w.2) m

/-- What copies at once write, if they read the memory `m₀`. -/
def values (m₀ : M) (copies : List (R × W)) : List (W × V) :=
  copies.map fun c => (c.2, read m₀ c.1)

/-- The memory behind copies in turn. -/
def inTurn (m : M) (copies : List (R × W)) : M :=
  copies.foldl (fun m c => write m c.2 (read m c.1)) m

/-- Each copy finds in the memory `m`, when it comes to it, what was in the memory `m₀`. -/
def Kept (m₀ : M) : M → List (R × W) → Prop
  | _, [] => True
  | m, c :: copies => read m c.1 = read m₀ c.1 ∧ Kept m₀ (write m c.2 (read m₀ c.1)) copies

/-- **Copies in turn** are copies at once as long as what they read is kept. -/
theorem inTurn_eq_writeAll {m₀ : M} {copies : List (R × W)} :
    ∀ {m : M}, Kept read write m₀ m copies →
      inTurn read write m copies = writeAll write m (values read m₀ copies) := by
  induction copies with
  | nil =>
    intro m _
    rfl
  | cons c copies ih =>
    rintro m ⟨hread, hkept⟩
    have hstep : inTurn read write m (c :: copies) =
        inTurn read write (write m c.2 (read m c.1)) copies := rfl
    rw [hstep, hread, ih hkept]
    rfl

/-- A place that no write touches is read as before. -/
theorem read_writeAll {writes : List (W × V)} {r : R} :
    ∀ {m : M}, (∀ w ∈ writes, ∀ m', read (write m' w.1 w.2) r = read m' r) →
      read (writeAll write m writes) r = read m r := by
  induction writes with
  | nil =>
    intro m _
    rfl
  | cons w writes ih =>
    intro m hapart
    have hstep : writeAll write m (w :: writes) = writeAll write (write m w.1 w.2) writes := rfl
    rw [hstep, ih fun w' hw' => hapart w' (List.mem_cons_of_mem _ hw')]
    exact hapart w List.mem_cons_self m

end Copies
