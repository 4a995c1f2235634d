/-
# Programs that take turns on a shared state

Several programs run each on a state of its own, of which one part is common to all.  A
scheduler gives them turns in any order.  In a turn a program goes on until it has performed
an operation that yields; the operations that hold the turn belong to one access that nothing
divides.

A task that looks at the common part, tries to commit and starts over when the common part has
changed meanwhile takes effect at one moment: whatever the schedule is, the tasks leave behind
what they do one after another in the order of their commits.  A try fails only if another task
has committed since the last look, so a task with as many tries as there are tasks does not give
up.
-/
import Cpueaxh.Program
import Mathlib.Data.Fintype.Card
import Mathlib.Data.Fintype.BigOperators

namespace Program

variable {Op : Type} {Reply : Op → Type} {α : Type} {τ τ' σ : Type} {ι : Type}

/-- The program has returned. -/
def Ended (p : Program Op Reply α) : Prop := ∃ a, p = ret a

/-- An interpreter on states with a common part. -/
structure Machine (Op : Type) (Reply : Op → Type) (τ σ : Type) where
  interp : Interpreter τ Op Reply
  /-- The operations that hold the turn. -/
  holds : Op → Bool
  /-- The common part of a state. -/
  get : τ → σ
  set : τ → σ → τ
  get_set : ∀ t s, get (set t s) = s
  set_get : ∀ t, set t (get t) = t
  set_set : ∀ t s s', set (set t s) s' = set t s'

/-- Programs with states of their own, and the common part of the states. -/
structure System (Op : Type) (Reply : Op → Type) (α τ σ ι : Type) where
  thread : ι → Program Op Reply α × τ
  shared : σ

namespace Machine

variable (m : Machine Op Reply τ σ)

/-- One turn: the operations that hold it, and the next one that yields. -/
def turn : Program Op Reply α → τ → Program Op Reply α × τ
  | ret a, t => (ret a, t)
  | call o next, t =>
    if m.holds o then turn (next (m.interp o t).1) (m.interp o t).2
    else (next (m.interp o t).1, (m.interp o t).2)

variable [DecidableEq ι]

/-- A turn of one program of a system. -/
def step (sys : System Op Reply α τ σ ι) (i : ι) : System Op Reply α τ σ ι :=
  let out := m.turn (sys.thread i).1 (m.set (sys.thread i).2 sys.shared)
  { thread := Function.update sys.thread i out, shared := m.get out.2 }

/-- Turns in the order of a schedule. -/
def steps (sys : System Op Reply α τ σ ι) (schedule : List ι) : System Op Reply α τ σ ι :=
  schedule.foldl m.step sys

end Machine

/-- All programs have returned. -/
def System.Ended (sys : System Op Reply α τ σ ι) : Prop := ∀ i, (sys.thread i).1.Ended

/-! ## Schedules -/

namespace Machine

variable {m : Machine Op Reply τ σ} [DecidableEq ι]

theorem step_self (sys : System Op Reply α τ σ ι) (i : ι) : (m.step sys i).thread i =
    m.turn (sys.thread i).1 (m.set (sys.thread i).2 sys.shared) :=
  Function.update_self i _ sys.thread

theorem step_other (sys : System Op Reply α τ σ ι) {i j : ι} (hj : j ≠ i) :
    (m.step sys i).thread j = sys.thread j :=
  Function.update_of_ne hj _ _

theorem steps_append (sys : System Op Reply α τ σ ι) (first rest : List ι) :
    m.steps sys (first ++ rest) = m.steps (m.steps sys first) rest :=
  List.foldl_append

/-- A program that has returned stays so. -/
theorem ended_step {sys : System Op Reply α τ σ ι} {i : ι} (h : (sys.thread i).1.Ended) (j : ι) :
    ((m.step sys j).thread i).1.Ended := by
  by_cases hij : i = j
  · subst hij
    obtain ⟨a, ha⟩ := h
    refine ⟨a, ?_⟩
    rw [step_self, ha]
    rfl
  · rwa [step_other sys hij]

theorem ended_steps {i : ι} (schedule : List ι) : ∀ {sys : System Op Reply α τ σ ι},
    (sys.thread i).1.Ended → ((m.steps sys schedule).thread i).1.Ended := by
  induction schedule with
  | nil => exact fun h => h
  | cons j schedule ih => exact fun h => ih (ended_step h j)

/-- A program with enough turns returns, as its tree has no endless branch. -/
theorem exists_turns (i : ι) (p : Program Op Reply α) : ∀ sys : System Op Reply α τ σ ι,
    (sys.thread i).1 = p → ∃ k, ((m.steps sys (List.replicate k i)).thread i).1.Ended := by
  -- the induction is on what is left of the program
  induction p with
  | ret a => exact fun sys hp => ⟨0, a, hp⟩
  | call o next ih =>
    intro sys hp
    generalize hout : m.interp o (m.set (sys.thread i).2 sys.shared) = out
    by_cases hholds : m.holds o = true
    · -- the system in which the operation has been performed has the same step
      let sys' : System Op Reply α τ σ ι :=
        { thread := Function.update sys.thread i (next out.1, out.2), shared := m.get out.2 }
      have hthread : sys'.thread i = (next out.1, out.2) := Function.update_self i _ sys.thread
      have hsame : m.turn (sys.thread i).1 (m.set (sys.thread i).2 sys.shared) =
          m.turn (sys'.thread i).1 (m.set (sys'.thread i).2 sys'.shared) := by
        rw [hp, hthread, turn, if_pos hholds, hout]
        dsimp only [sys']
        rw [m.set_get]
      have hstep : m.step sys i = m.step sys' i := by
        unfold step
        rw [hsame]
        dsimp only [sys']
        rw [Function.update_idem]
      obtain ⟨k, hk⟩ := ih out.1 sys' (by rw [hthread])
      cases k with
      | zero =>
        refine ⟨1, ?_⟩
        show ((m.step sys i).thread i).1.Ended
        rw [hstep]
        exact ended_step hk i
      | succ k =>
        refine ⟨k + 1, ?_⟩
        show ((m.steps (m.step sys i) (List.replicate k i)).thread i).1.Ended
        rw [hstep]
        exact hk
    -- an operation without an access is a turn for itself
    · have hthread : ((m.step sys i).thread i).1 = next out.1 := by
        rw [step_self, hp, turn, if_neg hholds, hout]
      obtain ⟨k, hk⟩ := ih out.1 (m.step sys i) hthread
      exact ⟨k + 1, hk⟩

/-- **Every schedule** can be continued until all programs have returned. -/
theorem exists_schedule [Fintype ι] (sys : System Op Reply α τ σ ι) :
    ∃ schedule, (m.steps sys schedule).Ended := by
  have hlist : ∀ (tasks : List ι) (sys : System Op Reply α τ σ ι),
      ∃ schedule, ∀ i ∈ tasks, ((m.steps sys schedule).thread i).1.Ended := by
    intro tasks
    induction tasks with
    | nil => exact fun sys => ⟨[], fun i hi => absurd hi List.not_mem_nil⟩
    | cons i tasks ih =>
      intro sys
      obtain ⟨k, hk⟩ := exists_turns i _ sys rfl
      obtain ⟨schedule, hrest⟩ := ih (m.steps sys (List.replicate k i))
      refine ⟨List.replicate k i ++ schedule, ?_⟩
      rw [steps_append]
      intro j hj
      rcases List.mem_cons.mp hj with rfl | hj
      · exact ended_steps schedule hk
      · exact hrest j hj
  obtain ⟨schedule, hended⟩ := hlist Finset.univ.toList sys
  exact ⟨schedule, fun i => hended i (Finset.mem_toList.mpr (Finset.mem_univ i))⟩

end Machine

/-! ## Simulation -/

/-- States of two machines that are alike: their operations answer alike and keep them so, and
keep the states of the others so. -/
structure Simulates (m m' : Machine Op Reply τ σ) (rel : τ → τ → Prop) : Prop where
  holds_eq : m'.holds = m.holds
  get_eq : ∀ {t t'}, rel t t' → m'.get t' = m.get t
  op : ∀ o {t t'}, rel t t' → (m'.interp o t').1 = (m.interp o t).1 ∧
    rel (m.interp o t).2 (m'.interp o t').2
  others : ∀ o {t t'}, rel t t' → ∀ u u', rel (m.set u (m.get t)) (m'.set u' (m.get t)) →
    rel (m.set u (m.get (m.interp o t).2)) (m'.set u' (m.get (m.interp o t).2))

/-- Systems of two machines that are alike. -/
structure SystemsAlike (m m' : Machine Op Reply τ σ) (rel : τ → τ → Prop)
    (sys sys' : System Op Reply α τ σ ι) : Prop where
  shared_eq : sys'.shared = sys.shared
  program_eq : ∀ i, (sys'.thread i).1 = (sys.thread i).1
  rel : ∀ i, rel (m.set (sys.thread i).2 sys.shared) (m'.set (sys'.thread i).2 sys.shared)

namespace Simulates

variable {m m' : Machine Op Reply τ σ} {rel : τ → τ → Prop} (h : Simulates m m' rel)

include h

/-- A turn of one program, before all others. -/
theorem turn (p : Program Op Reply α) : ∀ {t t' : τ}, rel t t' →
    (m'.turn p t').1 = (m.turn p t).1 ∧ rel (m.turn p t).2 (m'.turn p t').2 ∧
      ∀ u u', rel (m.set u (m.get t)) (m'.set u' (m.get t)) →
        rel (m.set u (m.get (m.turn p t).2)) (m'.set u' (m.get (m.turn p t).2)) := by
  induction p with
  | ret a => exact fun ht => ⟨rfl, ht, fun _ _ hu => hu⟩
  | call o next ih =>
    intro t t' ht
    obtain ⟨hreply, hrel⟩ := h.op o ht
    have hothers := h.others o ht
    unfold Machine.turn
    rw [h.holds_eq, hreply]
    split_ifs
    · obtain ⟨hp, hrel', hu⟩ := ih (m.interp o t).1 hrel
      exact ⟨hp, hrel', fun u u' hpair => hu u u' (hothers u u' hpair)⟩
    · exact ⟨rfl, hrel, hothers⟩

variable [DecidableEq ι]

theorem step {sys sys' : System Op Reply α τ σ ι} (hsys : SystemsAlike m m' rel sys sys') (i : ι) :
    SystemsAlike m m' rel (m.step sys i) (m'.step sys' i) := by
  obtain ⟨hp, hrel, hothers⟩ := h.turn (sys.thread i).1 (hsys.rel i)
  rw [m.get_set] at hothers
  have hturn' : m'.turn (sys'.thread i).1 (m'.set (sys'.thread i).2 sys'.shared) =
      m'.turn (sys.thread i).1 (m'.set (sys'.thread i).2 sys.shared) := by
    rw [hsys.program_eq, hsys.shared_eq]
  have hshared : (m'.step sys' i).shared = (m.step sys i).shared := by
    show m'.get (m'.turn _ _).2 = m.get (m.turn _ _).2
    rw [hturn']
    exact h.get_eq hrel
  have hshared_eq : (m.step sys i).shared =
      m.get (m.turn (sys.thread i).1 (m.set (sys.thread i).2 sys.shared)).2 := rfl
  refine ⟨hshared, fun j => ?_, fun j => ?_⟩
  · by_cases hj : j = i
    · subst hj
      rw [Machine.step_self, Machine.step_self, hturn']
      exact hp
    · rw [Machine.step_other _ hj, Machine.step_other _ hj]
      exact hsys.program_eq j
  · by_cases hj : j = i
    · subst hj
      rw [Machine.step_self, Machine.step_self, hturn', hshared_eq, m.set_get,
        ← h.get_eq hrel, m'.set_get]
      exact hrel
    · rw [Machine.step_other _ hj, Machine.step_other _ hj, hshared_eq]
      exact hothers _ _ (hsys.rel j)

/-- **Alike systems** stay alike under any schedule. -/
theorem steps (schedule : List ι) : ∀ {sys sys' : System Op Reply α τ σ ι},
    SystemsAlike m m' rel sys sys' →
      SystemsAlike m m' rel (m.steps sys schedule) (m'.steps sys' schedule) := by
  induction schedule with
  | nil => exact fun hsys => hsys
  | cons i schedule ih => exact fun hsys => ih (h.step hsys i)

end Simulates

/-! ## Tasks -/

/-- A machine with the proper values of its common part, and the answers of a task that has
committed and of one that has given up. -/
structure TaskMachine (Op : Type) (Reply : Op → Type) (α τ σ : Type) extends
    Machine Op Reply τ σ where
  ok : σ → Prop
  answer : α
  gaveUp : α

namespace TaskMachine

variable (m : TaskMachine Op Reply α τ σ)

/-- Behind its commit a program goes on with its own state only, and ends in `final` up to the
common part. -/
inductive Rests (final : τ) : Program Op Reply α → τ → Prop
  | ended {t : τ} (h : ∀ s, m.set t s = m.set final s) : Rests final (ret m.answer) t
  | quiet {o : Op} {next : Reply o → Program Op Reply α} {t t' : τ} {p : Program Op Reply α}
    (h : ∀ s, m.ok s → m.turn (call o next) (m.set t s) = (p, m.set t' s))
    (rest : Rests final p t') : Rests final (call o next) t

/-- A program in front of its commit, with the number of its tries and with what it has seen of
the common part, on which the next try relies.  `effect` is what the commit makes of the common
part and of the own state. -/
inductive Awaits (effect : σ → τ) : ℕ → Option σ → Program Op Reply α → τ → Prop
  | gaveUp {seen : Option σ} {t : τ} : Awaits effect 0 seen (ret m.gaveUp) t
  | quiet {n : ℕ} {seen : Option σ} {o : Op} {next : Reply o → Program Op Reply α} {t t' : τ}
    {p : Program Op Reply α}
    (h : ∀ s, m.ok s → m.turn (call o next) (m.set t s) = (p, m.set t' s))
    (rest : Awaits effect n seen p t') : Awaits effect n seen (call o next) t
  | peek {n : ℕ} {seen : Option σ} {o : Op} {next : Reply o → Program Op Reply α} {t : τ}
    (out : σ → Program Op Reply α × τ)
    (h : ∀ s, m.ok s → m.turn (call o next) (m.set t s) = ((out s).1, m.set (out s).2 s))
    (same : ∀ s ∈ seen, m.ok s → Awaits effect n (some s) (out s).1 (out s).2)
    (rest : ∀ s, m.ok s → Awaits effect n none (out s).1 (out s).2) :
    Awaits effect n seen (call o next) t
  | attempt {n : ℕ} {seen : Option σ} {o : Op} {next : Reply o → Program Op Reply α} {t : τ}
    (commits : σ → Prop) (out : σ → Program Op Reply α × τ)
    (hseen : ∀ s ∈ seen, commits s)
    (hcommit : ∀ s, m.ok s → commits s → m.turn (call o next) (m.set t s) =
      ((out s).1, m.set (out s).2 (m.get (effect s))))
    (rest : ∀ s, m.ok s → commits s → m.Rests (effect s) (out s).1 (out s).2)
    (hfail : ∀ s, m.ok s → ¬ commits s → m.turn (call o next) (m.set t s) =
      ((out s).1, m.set (out s).2 s))
    (again : ∀ s, m.ok s → ¬ commits s → Awaits effect n (some s) (out s).1 (out s).2) :
    Awaits effect (n + 1) seen (call o next) t

variable {m}

/-- The common part of the own state does not matter. -/
theorem Rests.set {final : τ} {p : Program Op Reply α} {t : τ} (h : m.Rests final p t) (s : σ) :
    m.Rests final p (m.set t s) := by
  cases h with
  | ended h => exact .ended fun s' => by rw [m.set_set, h]
  | quiet h rest => exact .quiet (fun s' hs' => by rw [m.set_set, h s' hs']) rest

theorem Awaits.set {effect : σ → τ} {n : ℕ} {seen : Option σ} {p : Program Op Reply α} {t : τ}
    (h : m.Awaits effect n seen p t) (s : σ) : m.Awaits effect n seen p (m.set t s) := by
  cases h with
  | gaveUp => exact .gaveUp
  | quiet h rest => exact .quiet (fun s' hs' => by rw [m.set_set, h s' hs']) rest
  | peek out h same rest => exact .peek out (fun s' hs' => by rw [m.set_set, h s' hs']) same rest
  | attempt commits out hseen hcommit rest hfail again =>
    refine .attempt commits out hseen ?_ rest ?_ again
    · intro s' hs' hc
      rw [m.set_set, hcommit s' hs' hc]
    · intro s' hs' hc
      rw [m.set_set, hfail s' hs' hc]

theorem Awaits.of_set {effect : σ → τ} {n : ℕ} {seen : Option σ} {p : Program Op Reply α} {t : τ}
    {s : σ} (h : m.Awaits effect n seen p (m.set t s)) : m.Awaits effect n seen p t := by
  have hback := h.set (m.get t)
  rwa [m.set_set, m.set_get] at hback

end TaskMachine

/-! ## The order of the commits -/

namespace TaskMachine

variable (m : TaskMachine Op Reply α τ σ) (effect : ι → σ → τ) (s₀ : σ)

/-- The common part behind some tasks, one after another. -/
def inOrder (order : List ι) : σ := order.foldl (fun s i => m.get (effect i s)) s₀

/-- A task that has `n` tries and relies on `seen` does not run out of them: it has seen the
common part behind the first `d` commits.  A task that relies on nothing any more has been
overtaken by a commit that none of its tries has failed for. -/
def InTime [Fintype ι] (order : List ι) (n : ℕ) : Option σ → Prop
  | none => Fintype.card ι + 1 ≤ n + order.length
  | some s => ∃ d ≤ order.length, s = m.inOrder effect s₀ (order.take d) ∧ Fintype.card ι ≤ n + d

/-- The state of a system in which the tasks of `order` have committed, in this order. -/
structure Linearized [Fintype ι] (order : List ι) (sys : System Op Reply α τ σ ι) : Prop where
  nodup : order.Nodup
  shared_eq : sys.shared = m.inOrder effect s₀ order
  rests : ∀ k i, order[k]? = some i → m.Rests (effect i (m.inOrder effect s₀ (order.take k)))
    (sys.thread i).1 (sys.thread i).2
  awaits : ∀ i ∉ order, ∃ n seen, m.InTime effect s₀ order n seen ∧
    m.Awaits (effect i) n seen (sys.thread i).1 (sys.thread i).2

variable {m effect s₀}

theorem inOrder_concat (order : List ι) (i : ι) :
    m.inOrder effect s₀ (order ++ [i]) = m.get (effect i (m.inOrder effect s₀ order)) := by
  unfold inOrder
  rw [List.foldl_append]
  rfl

/-- The common part stays a proper one. -/
theorem ok_inOrder (heffect : ∀ i s, m.ok s → m.ok (m.get (effect i s))) (hs : m.ok s₀)
    (order : List ι) : m.ok (m.inOrder effect s₀ order) := by
  induction order using List.reverseRecOn with
  | nil => exact hs
  | append_singleton order i ih =>
    rw [inOrder_concat]
    exact heffect i _ ih

variable [Fintype ι]

/-- Tasks that have not committed leave room in the order. -/
theorem length_lt_card {order : List ι} (hnodup : order.Nodup) {i : ι} (hi : i ∉ order) :
    order.length < Fintype.card ι := by
  have hcons : (i :: order).Nodup := List.nodup_cons.mpr ⟨hi, hnodup⟩
  have hle := hcons.length_le_card
  rw [List.length_cons] at hle
  omega

/-- A commit of another task leaves a task in time. -/
theorem InTime.concat {order : List ι} {n : ℕ} {seen : Option σ}
    (h : m.InTime effect s₀ order n seen) (j : ι) : m.InTime effect s₀ (order ++ [j]) n seen := by
  have hlength : (order ++ [j]).length = order.length + 1 := by
    rw [List.length_append, List.length_singleton]
  cases seen with
  | none =>
    have hn : Fintype.card ι + 1 ≤ n + order.length := h
    show Fintype.card ι + 1 ≤ n + (order ++ [j]).length
    omega
  | some s =>
    obtain ⟨d, hd, hs, hn⟩ := h
    refine ⟨d, by omega, ?_, hn⟩
    rw [List.take_append_of_le_length hd]
    exact hs

/-- What a task has seen is out of date only if another one has committed since. -/
theorem InTime.stale {order : List ι} {n : ℕ} {seen : Option σ}
    (h : m.InTime effect s₀ order n seen) (hstale : m.inOrder effect s₀ order ∉ seen) :
    Fintype.card ι + 1 ≤ n + order.length := by
  cases seen with
  | none => exact h
  | some s =>
    obtain ⟨d, hd, hs, hn⟩ := h
    have hlt : d ≠ order.length := by
      rintro rfl
      rw [List.take_length] at hs
      exact hstale (by rw [hs]; rfl)
    omega

/-- A try that fails has seen less than there is, so the next one is in time too. -/
theorem InTime.again {order : List ι} {n : ℕ} {seen : Option σ}
    (h : m.InTime effect s₀ order (n + 1) seen) (hstale : m.inOrder effect s₀ order ∉ seen) :
    m.InTime effect s₀ order n (some (m.inOrder effect s₀ order)) := by
  have hn := h.stale hstale
  refine ⟨order.length, le_rfl, ?_, by omega⟩
  rw [List.take_length]

/-- The tasks in time have tries left. -/
theorem InTime.pos {order : List ι} {n : ℕ} {seen : Option σ}
    (h : m.InTime effect s₀ order n seen) (hlt : order.length < Fintype.card ι) : 0 < n := by
  cases seen with
  | none =>
    have hn : Fintype.card ι + 1 ≤ n + order.length := h
    omega
  | some s =>
    obtain ⟨d, hd, -, hn⟩ := h
    omega

variable [DecidableEq ι]

namespace Linearized

variable {order : List ι} {sys : System Op Reply α τ σ ι} {i : ι} {p : Program Op Reply α} {t : τ}

/-- A turn that keeps the common part adds no commit. -/
theorem keep (h : m.Linearized effect s₀ order sys)
    (hturn : m.turn (sys.thread i).1 (m.set (sys.thread i).2 sys.shared) = (p, m.set t sys.shared))
    (hrests : ∀ k, order[k]? = some i →
      m.Rests (effect i (m.inOrder effect s₀ (order.take k))) p t)
    (hawaits : i ∉ order → ∃ n seen, m.InTime effect s₀ order n seen ∧
      m.Awaits (effect i) n seen p t) : m.Linearized effect s₀ order (m.step sys i) := by
  have hself : (m.step sys i).thread i = (p, m.set t sys.shared) :=
    (Machine.step_self sys i).trans hturn
  refine ⟨h.nodup, ?_, ?_, ?_⟩
  · show m.get (m.turn _ _).2 = _
    rw [hturn, ← h.shared_eq]
    exact m.get_set _ _
  · intro k j hk
    by_cases hj : j = i
    · subst hj
      rw [hself]
      exact (hrests k hk).set _
    · rw [Machine.step_other sys hj]
      exact h.rests k j hk
  · intro j hj
    by_cases hji : j = i
    · subst hji
      rw [hself]
      obtain ⟨n, seen, htime, hp⟩ := hawaits hj
      exact ⟨n, seen, htime, hp.set _⟩
    · rw [Machine.step_other sys hji]
      exact h.awaits j hj

/-- A turn that commits. -/
theorem commit (h : m.Linearized effect s₀ order sys) (hi : i ∉ order)
    (hturn : m.turn (sys.thread i).1 (m.set (sys.thread i).2 sys.shared) =
      (p, m.set t (m.get (effect i sys.shared))))
    (hrests : m.Rests (effect i sys.shared) p t) :
    m.Linearized effect s₀ (order ++ [i]) (m.step sys i) := by
  have hself := (Machine.step_self sys i).trans hturn
  refine ⟨?_, ?_, ?_, ?_⟩
  · rw [List.nodup_append]
    exact ⟨h.nodup, List.nodup_singleton i, fun a ha b hb heq =>
      hi (by rwa [heq, List.mem_singleton.mp hb] at ha)⟩
  · show m.get (m.turn _ _).2 = _
    rw [hturn, inOrder_concat, ← h.shared_eq]
    exact m.get_set _ _
  · intro k j hk
    rcases Nat.lt_trichotomy k order.length with hk' | rfl | hk'
    · rw [List.getElem?_append_left hk'] at hk
      have hj : j ≠ i := by
        rintro rfl
        exact hi (List.mem_of_getElem? hk)
      rw [Machine.step_other sys hj, List.take_append_of_le_length hk'.le]
      exact h.rests k j hk
    · rw [List.getElem?_concat_length, Option.some.injEq] at hk
      subst hk
      rw [hself, List.take_append_of_le_length le_rfl, List.take_length, ← h.shared_eq]
      exact hrests.set _
    · have hlength : (order ++ [i]).length ≤ k := by
        rw [List.length_append, List.length_singleton]
        omega
      rw [List.getElem?_eq_none hlength] at hk
      cases hk
  · intro j hj
    rw [List.mem_append, List.mem_singleton] at hj
    push Not at hj
    rw [Machine.step_other sys hj.2]
    obtain ⟨n, seen, htime, hawaits⟩ := h.awaits j hj.1
    exact ⟨n, seen, htime.concat i, hawaits⟩

/-- A turn of a task that has committed. -/
theorem step_rests (h : m.Linearized effect s₀ order sys)
    (hok : m.ok (m.inOrder effect s₀ order)) (hi : i ∈ order) :
    m.Linearized effect s₀ order (m.step sys i) := by
  rw [← h.shared_eq] at hok
  obtain ⟨k, hk⟩ := List.mem_iff_getElem?.mp hi
  obtain ⟨hlt, -⟩ := List.getElem?_eq_some_iff.mp hk
  -- it has committed once, at this place
  have hplace : ∀ k', order[k']? = some i → k = k' := fun k' hk' =>
    (List.getElem?_inj hlt h.nodup).mp (hk.trans hk'.symm)
  have hrests := h.rests k i hk
  have hkeep := @keep _ _ _ _ _ _ m effect s₀ _ _ order sys i
  generalize (sys.thread i).1 = p at hrests hkeep
  generalize (sys.thread i).2 = t at hrests hkeep
  cases hrests with
  | ended hfinal =>
    refine hkeep h rfl (fun k' hk' => ?_) fun hnot => absurd hi hnot
    obtain rfl := hplace k' hk'
    exact .ended hfinal
  | quiet hturn rest =>
    refine hkeep h (hturn _ hok) (fun k' hk' => ?_) fun hnot => absurd hi hnot
    obtain rfl := hplace k' hk'
    exact rest

/-- A turn of a task that has not: it keeps the order, or is the next to commit. -/
theorem step_awaits (h : m.Linearized effect s₀ order sys)
    (hok : m.ok (m.inOrder effect s₀ order)) (hi : i ∉ order) :
    m.Linearized effect s₀ order (m.step sys i) ∨
      m.Linearized effect s₀ (order ++ [i]) (m.step sys i) := by
  have hshared := h.shared_eq
  rw [← hshared] at hok
  obtain ⟨n, seen, htime, hawaits⟩ := h.awaits i hi
  have hlt := length_lt_card h.nodup hi
  have hnone : ∀ {p : Program Op Reply α} {t : τ}, ∀ k, order[k]? = some i →
      m.Rests (effect i (m.inOrder effect s₀ (order.take k))) p t :=
    fun k hk => absurd (List.mem_of_getElem? hk) hi
  have hkeep := @keep _ _ _ _ _ _ m effect s₀ _ _ order sys i
  have hcommit := @commit _ _ _ _ _ _ m effect s₀ _ _ order sys i
  generalize (sys.thread i).1 = p at hawaits hkeep hcommit
  generalize (sys.thread i).2 = t at hawaits hkeep hcommit
  cases hawaits with
  | gaveUp => exact absurd (htime.pos hlt) (lt_irrefl 0)
  | quiet hturn rest => exact Or.inl (hkeep h (hturn _ hok) hnone fun _ => ⟨n, seen, htime, rest⟩)
  | peek out hturn same rest =>
    refine Or.inl (hkeep h (hturn _ hok) hnone fun _ => ?_)
    by_cases hseen : sys.shared ∈ seen
    · have hsame := same _ hseen hok
      rw [← Option.mem_def.mp hseen] at hsame
      exact ⟨n, seen, htime, hsame⟩
    · exact ⟨n, none, htime.stale (hshared ▸ hseen), rest _ hok⟩
  | @attempt n _ o next _ commits out hseen hturn rest hfail again =>
    by_cases hc : commits sys.shared
    · exact Or.inr (hcommit h hi (hturn _ hok hc) (rest _ hok hc))
    · refine Or.inl (hkeep h (hfail _ hok hc) hnone fun _ => ?_)
      have hstale : m.inOrder effect s₀ order ∉ seen := by
        rw [← hshared]
        exact fun hmem => hc (hseen _ hmem)
      have hagain := again _ hok hc
      rw [hshared] at hagain ⊢
      exact ⟨n, _, htime.again hstale, hagain⟩

/-- **A step** keeps the order or adds a commit to it. -/
theorem step (h : m.Linearized effect s₀ order sys) (hok : m.ok (m.inOrder effect s₀ order))
    (i : ι) : ∃ order', m.Linearized effect s₀ order' (m.step sys i) := by
  by_cases hi : i ∈ order
  · exact ⟨order, h.step_rests hok hi⟩
  · rcases h.step_awaits hok hi with hstep | hstep
    · exact ⟨order, hstep⟩
    · exact ⟨order ++ [i], hstep⟩

end Linearized

/-- **Any schedule** leaves behind what the tasks do in the order of their commits. -/
theorem Linearized.steps (heffect : ∀ i s, m.ok s → m.ok (m.get (effect i s))) (hs : m.ok s₀)
    (schedule : List ι) : ∀ {order : List ι} {sys : System Op Reply α τ σ ι},
    m.Linearized effect s₀ order sys →
      ∃ order', m.Linearized effect s₀ order' (m.steps sys schedule) := by
  induction schedule with
  | nil => exact fun h => ⟨_, h⟩
  | cons i schedule ih =>
    intro order sys h
    obtain ⟨order', h'⟩ := h.step (ok_inOrder heffect hs order) i
    exact ih h'

/-- What the tasks leave behind, one after another in some order. -/
structure Serial (m : TaskMachine Op Reply α τ σ) (effect : ι → σ → τ) (s₀ : σ) (order : List ι)
    (sys : System Op Reply α τ σ ι) : Prop where
  nodup : order.Nodup
  all : ∀ i, i ∈ order
  shared_eq : sys.shared = m.inOrder effect s₀ order
  thread_eq : ∀ k i, order[k]? = some i → (sys.thread i).1 = ret m.answer ∧
    ∀ s, m.set (sys.thread i).2 s = m.set (effect i (m.inOrder effect s₀ (order.take k))) s

/-- When all programs have returned, all tasks have committed. -/
theorem Linearized.serial {order : List ι} {sys : System Op Reply α τ σ ι}
    (h : m.Linearized effect s₀ order sys) (hended : sys.Ended) : m.Serial effect s₀ order sys := by
  refine ⟨h.nodup, ?_, h.shared_eq, ?_⟩
  · intro i
    by_contra hi
    obtain ⟨n, seen, htime, hawaits⟩ := h.awaits i hi
    obtain ⟨a, ha⟩ := hended i
    rw [ha] at hawaits
    cases hawaits with
    | gaveUp => exact absurd (htime.pos (length_lt_card h.nodup hi)) (lt_irrefl 0)
  · intro k i hk
    have hrests := h.rests k i hk
    obtain ⟨a, ha⟩ := hended i
    rw [ha] at hrests ⊢
    cases hrests with
    | ended hfinal => exact ⟨rfl, hfinal⟩

/-- **Linearization.**  Tasks with as many tries as there are tasks take effect one after another,
whatever the schedule is. -/
theorem serial_of_awaits (heffect : ∀ i s, m.ok s → m.ok (m.get (effect i s)))
    {sys : System Op Reply α τ σ ι} (hs : m.ok sys.shared)
    (hawaits : ∀ i, ∃ n, Fintype.card ι ≤ n ∧
      m.Awaits (effect i) n (some sys.shared) (sys.thread i).1 (sys.thread i).2)
    (schedule : List ι) (hended : (m.steps sys schedule).Ended) :
    ∃ order, m.Serial effect sys.shared order (m.steps sys schedule) := by
  have hstart : m.Linearized effect sys.shared [] sys := by
    refine ⟨List.nodup_nil, rfl, ?_, ?_⟩
    · intro k i hk
      cases hk
    · intro i _
      obtain ⟨n, hn, hi⟩ := hawaits i
      exact ⟨n, some sys.shared, ⟨0, le_rfl, rfl, hn⟩, hi⟩
  obtain ⟨order, h⟩ := Linearized.steps heffect hs schedule hstart
  exact ⟨order, h.serial hended⟩

end TaskMachine

end Program
