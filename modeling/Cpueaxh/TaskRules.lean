/-
# Rules for tasks on a shared state

How the two judgements about a task are put together along its program: a part that keeps to
its own state, a part that reads the common one, and the access that commits or fails.
-/
import Cpueaxh.Interleaving

namespace Program

variable {Op : Type} {Reply : Op → Type} {α β γ : Type} {τ σ : Type}

theorem bind_assoc (p : Program Op Reply α) (f : α → Program Op Reply β)
    (g : β → Program Op Reply γ) : p >>= f >>= g = p >>= fun a => f a >>= g := by
  show (p.bind f).bind g = p.bind fun a => (f a).bind g
  induction p with
  | ret a => rfl
  | call o next ih => exact congrArg (call o) (funext ih)

/-- All operations of a program are of a kind, whatever they answer. -/
def Every (kind : Op → Prop) : Program Op Reply α → Prop
  | ret _ => True
  | call o next => kind o ∧ ∀ r, Every kind (next r)

theorem Every.bind {kind : Op → Prop} {p : Program Op Reply α} {f : α → Program Op Reply β}
    (hp : Every kind p) (hf : ∀ a, Every kind (f a)) : Every kind (p >>= f) := by
  show Every kind (p.bind f)
  induction p with
  | ret a => exact hf a
  | call o next ih => exact ⟨hp.1, fun r => ih r (hp.2 r)⟩

theorem every_pure {kind : Op → Prop} (a : α) : Every kind (pure a : Program Op Reply α) := trivial

theorem every_perform {kind : Op → Prop} {o : Op} (h : kind o) :
    Every kind (perform o : Program Op Reply (Reply o)) := ⟨h, fun _ => trivial⟩

theorem every_ite {kind : Op → Prop} {c : Prop} [Decidable c] {p q : Program Op Reply α}
    (hp : Every kind p) (hq : Every kind q) : Every kind (if c then p else q) := by
  split_ifs
  · exact hp
  · exact hq

namespace Machine

variable (m : Machine Op Reply τ σ)

/-- An operation on the own state, which yields. -/
def Own (o : Op) : Prop :=
  m.holds o = false ∧ ∀ t s, m.interp o (m.set t s) = ((m.interp o t).1, m.set (m.interp o t).2 s)

/-- An operation that reads the common part, and holds the turn. -/
def Looks (o : Op) : Prop := m.holds o = true ∧ ∀ t, (m.interp o t).2 = t

/-- What a program of such operations ends in, whatever it reads.  It yields between its last
look and its end; `looked` says that it has looked since it last yielded. -/
def Reads (post : α → τ → Prop) : Bool → Program Op Reply α → τ → Prop
  | looked, ret a, t => looked = false ∧ post a t
  | _, call o next, t => (m.Own o ∧ Reads post false (next (m.interp o t).1) (m.interp o t).2) ∨
      (m.Looks o ∧ ∀ r, Reads post true (next r) t)

variable {m}

theorem Own.turn {o : Op} (h : m.Own o) (next : Reply o → Program Op Reply α) (t : τ) (s : σ) :
    m.turn (call o next) (m.set t s) = (next (m.interp o t).1, m.set (m.interp o t).2 s) := by
  unfold Machine.turn
  rw [if_neg (by rw [h.1]; decide), h.2]

/-- Operations that hold the turn, in front of the rest of it. -/
theorem turn_held {c : Program Op Reply β} (hc : Every (fun o => m.holds o = true) c)
    (k : β → Program Op Reply α) : ∀ t, m.turn (c >>= k) t =
      m.turn (k (c.run m.interp t).1) (c.run m.interp t).2 := by
  show ∀ t, m.turn (c.bind k) t = _
  induction c with
  | ret b => exact fun t => rfl
  | call o next ih =>
    intro t
    show (if m.holds o then m.turn ((next (m.interp o t).1).bind k) (m.interp o t).2 else _) = _
    rw [if_pos hc.1]
    exact ih _ (hc.2 _) _

/-- Parts of a program one behind the other. -/
theorem Reads.bind {post : α → τ → Prop} {post' : β → τ → Prop} {q : Program Op Reply α}
    {f : α → Program Op Reply β} : ∀ {looked : Bool} {t : τ}, m.Reads post looked q t →
      (∀ a t', post a t' → m.Reads post' false (f a) t') → m.Reads post' looked (q >>= f) t := by
  show ∀ {looked : Bool} {t : τ}, _ → _ → m.Reads post' looked (q.bind f) t
  induction q with
  | ret a =>
    rintro looked t ⟨rfl, hpost⟩ hf
    exact hf a t hpost
  | call o next ih =>
    intro looked t h hf
    rcases h with ⟨hown, hrest⟩ | ⟨hlooks, hrest⟩
    · exact Or.inl ⟨hown, ih _ hrest hf⟩
    · exact Or.inr ⟨hlooks, fun r => ih r (hrest r) hf⟩

/-- A program on the own state. -/
theorem reads_own {q : Program Op Reply α} (hq : Every m.Own q) : ∀ t,
    m.Reads (fun a t' => q.run m.interp t = (a, t')) false q t := by
  have hgeneral : ∀ (q : Program Op Reply α), Every m.Own q → ∀ (post : α → τ → Prop) (t : τ),
      post (q.run m.interp t).1 (q.run m.interp t).2 → m.Reads post false q t := by
    intro q
    induction q with
    | ret a => exact fun _ post t hpost => ⟨rfl, hpost⟩
    | call o next ih =>
      exact fun hq post t hpost => Or.inl ⟨hq.1, ih _ (hq.2 _) post _ hpost⟩
  exact fun t => hgeneral q hq _ t rfl

end Machine

namespace TaskMachine

variable {m : TaskMachine Op Reply α τ σ} {effect : σ → τ} {n : ℕ} {seen : Option σ}

/-- The end of a task: it keeps to its own state. -/
theorem rests_of_run {final : τ} (q : Program Op Reply α) (hq : Every m.Own q) : ∀ {t : τ},
    (q.run m.interp t).1 = m.answer → (∀ s, m.set (q.run m.interp t).2 s = m.set final s) →
      m.Rests final q t := by
  induction q with
  | ret a =>
    intro t hanswer hfinal
    obtain rfl : a = m.answer := hanswer
    exact .ended hfinal
  | call o next ih =>
    intro t hanswer hfinal
    exact .quiet (fun s _ => hq.1.turn next t s) (ih _ (hq.2 _) hanswer hfinal)

/-- A part in front that keeps to the own state. -/
theorem awaits_own (q : Program Op Reply β) {k : β → Program Op Reply α} (hq : Every m.Own q) :
    ∀ {t : τ}, m.Awaits effect n seen (k (q.run m.interp t).1) (q.run m.interp t).2 →
      m.Awaits effect n seen (q >>= k) t := by
  show ∀ {t : τ}, _ → m.Awaits effect n seen (q.bind k) t
  induction q with
  | ret b => exact fun h => h
  | call o next ih =>
    intro t h
    exact .quiet (fun s _ => hq.1.turn _ t s) (ih _ (hq.2 _) h)

/-- A part in front that reads the common part.  If that has remained what the task relies on, the
part has read what it reads alone; otherwise the task relies on nothing behind it. -/
theorem awaits_reads {post : β → τ → Prop} (q : Program Op Reply β) {k : β → Program Op Reply α}
    (hk : ∀ b t, post b t → m.Awaits effect n none (k b) t) {t : τ} (h : m.Reads post false q t)
    (hseen : ∀ s ∈ seen, m.Awaits effect n (some s) (k (q.run m.interp (m.set t s)).1)
      (q.run m.interp (m.set t s)).2) : m.Awaits effect n seen (q >>= k) t := by
  -- behind a look the rest of the turn is on the same common part
  have hboth : ∀ t,
      (m.Reads post false q t → ∀ seen : Option σ,
        (∀ s ∈ seen, m.Awaits effect n (some s) (k (q.run m.interp (m.set t s)).1)
          (q.run m.interp (m.set t s)).2) → m.Awaits effect n seen (q.bind k) t) ∧
      (m.Reads post true q t → ∀ s, m.ok s → ∃ p t', m.turn (q.bind k) (m.set t s) =
        (p, m.set t' s) ∧ m.Awaits effect n none p t' ∧
          (m.Awaits effect n (some s) (k (q.run m.interp (m.set t s)).1)
            (q.run m.interp (m.set t s)).2 → m.Awaits effect n (some s) p t')) := by
    -- the induction is on the program that reads; it may have looked already in this turn
    clear h hseen t
    induction q with
    | ret b =>
      intro t
      refine ⟨fun h seen hseen => ?_, fun h => absurd h.1 (by decide)⟩
      cases seen with
      | none => exact hk b t h.2
      | some s => exact (hseen s rfl).of_set
    | call o next ih =>
      intro t
      -- an operation of its own yields
      have hown : m.Own o → m.Reads post false (next (m.interp o t).1) (m.interp o t).2 →
          ∀ seen : Option σ, (∀ s ∈ seen, m.Awaits effect n (some s)
            (k ((call o next).run m.interp (m.set t s)).1)
            ((call o next).run m.interp (m.set t s)).2) →
          m.Awaits effect n seen ((next (m.interp o t).1).bind k) (m.interp o t).2 := by
        intro hown hrest seen hseen
        refine (ih _ _).1 hrest seen fun s hs => ?_
        have hs := hseen s hs
        unfold Program.run at hs
        rw [hown.2] at hs
        exact hs
      -- an operation that looks goes on within the turn
      have hlooks : m.Looks o → (∀ r, m.Reads post true (next r) t) → ∀ s, m.ok s → ∃ p t',
          m.turn ((call o next).bind k) (m.set t s) = (p, m.set t' s) ∧
            m.Awaits effect n none p t' ∧
              (m.Awaits effect n (some s) (k ((call o next).run m.interp (m.set t s)).1)
                ((call o next).run m.interp (m.set t s)).2 → m.Awaits effect n (some s) p t') := by
        intro hlooks hrest s hs
        obtain ⟨p, t', hturn, hp, hsame⟩ := (ih (m.interp o (m.set t s)).1 t).2 (hrest _) s hs
        refine ⟨p, t', ?_, hp, fun hseen => ?_⟩
        · show (if m.holds o then m.turn ((next (m.interp o (m.set t s)).1).bind k)
            (m.interp o (m.set t s)).2 else _) = _
          rw [if_pos hlooks.1, hlooks.2]
          exact hturn
        · unfold Program.run at hseen
          rw [hlooks.2] at hseen
          exact hsame hseen
      constructor
      · rintro (⟨ho, hrest⟩ | ⟨hl, hrest⟩) seen hseen
        · exact .quiet (fun s _ => ho.turn _ t s) (hown ho hrest seen hseen)
        -- the turn goes on past the look, up to the next yield
        · have hturns := hlooks hl hrest
          have hprogram : Nonempty (Program Op Reply α) := ⟨ret m.answer⟩
          have hstate : Nonempty τ := ⟨t⟩
          choose! p t' hturn using hturns
          exact .peek (fun s => (p s, t' s)) (fun s hs => (hturn s hs).1)
            (fun s hs hok => (hturn s hok).2.2 (hseen s hs)) fun s hs => (hturn s hs).2.1
      · rintro (⟨ho, hrest⟩ | ⟨hl, hrest⟩) s hs
        · refine ⟨_, _, ho.turn _ t s, hown ho hrest none fun _ h => ?_, fun hseen => ?_⟩
          · cases h
          · refine hown ho hrest (some s) fun s' hs' => ?_
            obtain rfl := Option.mem_some_iff.mp hs'
            exact hseen
        · exact hlooks hl hrest s hs
  exact (hboth t).1 h seen hseen

/-- What is left of the turn behind the commit. -/
theorem Rests.turn {final : τ} {p : Program Op Reply α} {t : τ} (h : m.Rests final p t) {s : σ}
    (hs : m.ok s) : ∃ p' t', m.turn p (m.set t s) = (p', m.set t' s) ∧ m.Rests final p' t' := by
  cases h with
  | ended hfinal => exact ⟨_, t, rfl, .ended hfinal⟩
  | quiet h rest => exact ⟨_, _, h s hs, rest⟩

/-- **The access** that commits or fails: its operations hold the turn. -/
theorem awaits_access {c : Program Op Reply β} {k : β → Program Op Reply α} {t : τ}
    (hheld : Every (fun o => m.holds o = true) c) (hlive : ¬ c.Ended) (commits : σ → Prop)
    (hok : ∀ s, m.ok s → m.ok (m.get (effect s))) (hseen : ∀ s ∈ seen, commits s)
    (hcommit : ∀ s, m.ok s → commits s → ∃ b, c.run m.interp (m.set t s) =
      (b, m.set t (m.get (effect s))) ∧ m.Rests (effect s) (k b) t)
    (hfail : ∀ s, m.ok s → ¬ commits s → ∃ b o next, c.run m.interp (m.set t s) =
      (b, m.set t s) ∧ k b = call o next ∧ m.Own o ∧
        m.Awaits effect n (some s) (next (m.interp o t).1) (m.interp o t).2) :
    m.Awaits effect (n + 1) seen (c >>= k) t := by
  have hturn := Machine.turn_held hheld k
  have hc : ∀ s, m.ok s → commits s → ∃ p t', m.turn (c >>= k) (m.set t s) =
      (p, m.set t' (m.get (effect s))) ∧ m.Rests (effect s) p t' := by
    intro s hs hcom
    obtain ⟨b, hrun, hrests⟩ := hcommit s hs hcom
    rw [hturn, hrun]
    exact hrests.turn (hok s hs)
  have hf : ∀ s, m.ok s → ¬ commits s → ∃ p t', m.turn (c >>= k) (m.set t s) =
      (p, m.set t' s) ∧ m.Awaits effect n (some s) p t' := by
    intro s hs hcom
    obtain ⟨b, o, next, hrun, hk, hown, hawaits⟩ := hfail s hs hcom
    rw [hturn, hrun]
    dsimp only
    rw [hk, hown.turn]
    exact ⟨_, _, rfl, hawaits⟩
  -- a turn commits or fails by the common part that it finds
  have hout : ∀ s, m.ok s → ∃ out : Program Op Reply α × τ,
      (commits s → m.turn (c >>= k) (m.set t s) = (out.1, m.set out.2 (m.get (effect s))) ∧
        m.Rests (effect s) out.1 out.2) ∧
      (¬ commits s → m.turn (c >>= k) (m.set t s) = (out.1, m.set out.2 s) ∧
        m.Awaits effect n (some s) out.1 out.2) := by
    intro s hs
    by_cases hcom : commits s
    · obtain ⟨p, t', h⟩ := hc s hs hcom
      exact ⟨(p, t'), fun _ => h, fun hnot => absurd hcom hnot⟩
    · obtain ⟨p, t', h⟩ := hf s hs hcom
      exact ⟨(p, t'), fun hyes => absurd hyes hcom, fun _ => h⟩
  have hnonempty : Nonempty (Program Op Reply α × τ) := ⟨(ret m.answer, t)⟩
  choose! out hout using hout
  cases c with
  | ret b => exact absurd ⟨b, rfl⟩ hlive
  | call o next =>
    exact .attempt commits out hseen (fun s hs hcom => ((hout s hs).1 hcom).1)
      (fun s hs hcom => ((hout s hs).1 hcom).2) (fun s hs hcom => ((hout s hs).2 hcom).1)
      fun s hs hcom => ((hout s hs).2 hcom).2

end TaskMachine

end Program
