/-
# Counted runs

`cpueaxh_emu_start` with a count, under callbacks that make any calls they like.  Behind that many
turns at the latest the loop has ended; and a call that only its count has ended was the beginning
of a longer one, which goes on as a second call does.
-/
import Cpueaxh.Redirect

namespace Cpueaxh

open Transition

variable {ω : Type}

namespace Hosted

/-! ## Turns -/

/-- The loop ends here, whatever its count is: the guest is at the stop address, or a stop has been
requested. -/
def Halts (stopAt : U64) (h : Hosted ω) : Prop :=
  (stopAt ≠ 0 ∧ h.context.rip = stopAt) ∨ h.shared.stopRequested = true

instance (stopAt : U64) (h : Hosted ω) : Decidable (h.Halts stopAt) :=
  inferInstanceAs (Decidable (_ ∨ _))

/-- The state behind some turns of a loop that all go on; `none` when one of them does not. -/
def turns (turn : Hosted ω → Option CpueaxhErr × Hosted ω) (stopAt : U64) :
    ℕ → Hosted ω → Option (Hosted ω)
  | 0, h => some h
  | n + 1, h =>
    if h.Halts stopAt then none
    else
      match turn h with
      | (none, h) => turns turn stopAt n h
      | (some _, _) => none

variable {turn : Hosted ω → Option CpueaxhErr × Hosted ω} {stopAt : U64} {h h' : Hosted ω}

/-- The test before a turn. -/
theorem finished_iff (entry : U64) (count executed : ℕ) :
    h.finished ⟨entry, stopAt, count⟩ executed = true ↔
      (count ≠ 0 ∧ count ≤ executed) ∨ h.Halts stopAt := by
  unfold finished Halts
  rw [Bool.or_eq_true, Bool.or_eq_true, decide_eq_true_iff, decide_eq_true_iff, or_assoc]

/-- The turns one at a time. -/
theorem turns_succ {n : ℕ} :
    turns turn stopAt (n + 1) h = some h' ↔ ¬ h.Halts stopAt ∧
      ∃ next, turn h = (none, next) ∧ turns turn stopAt n next = some h' := by
  rw [turns]
  by_cases hhalts : h.Halts stopAt
  · rw [if_pos hhalts]
    exact ⟨fun hnone => (by cases hnone), fun hrest => absurd hhalts hrest.1⟩
  · rw [if_neg hhalts]
    rcases hturn : turn h with ⟨_ | error, next⟩
    · constructor
      · exact fun hrest => ⟨hhalts, next, rfl, hrest⟩
      · rintro ⟨-, next', heq, hrest⟩
        obtain rfl := (Prod.mk.inj heq).2
        exact hrest
    · constructor
      · intro hnone
        cases hnone
      · rintro ⟨-, next', heq, -⟩
        cases (Prod.mk.inj heq).1

/-! ## The loop -/

variable {entry entry' : U64} {count count' fuel executed executed' : ℕ}

theorem not_finished (hcount : count = 0 ∨ executed < count) (hhalts : ¬ h.Halts stopAt) :
    ¬ h.finished ⟨entry, stopAt, count⟩ executed = true := by
  rw [finished_iff]
  rintro (hdone | hhalt)
  · omega
  · exact hhalts hhalt

/-- A turn of the loop that goes on. -/
theorem emuLoop_next (hcount : count = 0 ∨ executed < count) (hhalts : ¬ h.Halts stopAt)
    (hturn : turn h = (none, h')) :
    emuLoop turn ⟨entry, stopAt, count⟩ (fuel + 1) executed h =
      emuLoop turn ⟨entry, stopAt, count⟩ fuel (executed + 1) h' := by
  rw [emuLoop, if_neg (not_finished hcount hhalts), hturn]

/-- A turn that leaves the loop. -/
theorem emuLoop_left {error : CpueaxhErr} (hcount : count = 0 ∨ executed < count)
    (hhalts : ¬ h.Halts stopAt) (hturn : turn h = (some error, h')) :
    emuLoop turn ⟨entry, stopAt, count⟩ (fuel + 1) executed h = some (error, h') := by
  rw [emuLoop, if_neg (not_finished hcount hhalts), hturn]

/-- The end of the loop before a turn. -/
theorem emuLoop_done (hdone : (count ≠ 0 ∧ count ≤ executed) ∨ h.Halts stopAt) :
    emuLoop turn ⟨entry, stopAt, count⟩ (fuel + 1) executed h = some (cpueaxhErrOk, h) := by
  rw [emuLoop, if_pos ((finished_iff entry count executed).mpr hdone)]

/-- **The loop goes through its turns**, as long as its count lets it. -/
theorem emuLoop_turns {n : ℕ} : ∀ {executed : ℕ} {h : Hosted ω},
    turns turn stopAt n h = some h' → (count = 0 ∨ executed + n ≤ count) →
      emuLoop turn ⟨entry, stopAt, count⟩ (n + fuel) executed h =
        emuLoop turn ⟨entry, stopAt, count⟩ fuel (executed + n) h' := by
  induction n with
  | zero =>
    intro executed h hturns _
    obtain rfl := Option.some.inj hturns
    rw [Nat.zero_add, Nat.add_zero]
  | succ n ih =>
    intro executed h hturns hcount
    obtain ⟨hhalts, next, hturn, hrest⟩ := turns_succ.mp hturns
    rw [show n + 1 + fuel = (n + fuel) + 1 by omega, emuLoop_next (by omega) hhalts hturn,
      ih hrest (by omega)]
    congr 1
    omega

/-- Only what is left of the count matters. -/
theorem emuLoop_shift {done : ℕ} (hcount : count ≠ 0) : ∀ {executed : ℕ} {h : Hosted ω},
    emuLoop turn ⟨entry, stopAt, done + count⟩ fuel (done + executed) h =
      emuLoop turn ⟨entry', stopAt, count⟩ fuel executed h := by
  induction fuel with
  | zero => exact fun {_ _} => rfl
  | succ fuel ih =>
    intro executed h
    by_cases hdone : (count ≠ 0 ∧ count ≤ executed) ∨ h.Halts stopAt
    · rw [emuLoop_done hdone, emuLoop_done]
      rcases hdone with hcounted | hhalts
      · exact Or.inl (by omega)
      · exact Or.inr hhalts
    · rw [not_or] at hdone
      rcases hturn : turn h with ⟨_ | error, next⟩
      · rw [emuLoop_next (by omega) hdone.2 hturn, emuLoop_next (by omega) hdone.2 hturn,
          Nat.add_assoc, ih]
      · rw [emuLoop_left (by omega) hdone.2 hturn, emuLoop_left (by omega) hdone.2 hturn]

/-- Without a count the turns before do not matter. -/
theorem emuLoop_unlimited : ∀ {executed executed' : ℕ} {h : Hosted ω},
    emuLoop turn ⟨entry, stopAt, 0⟩ fuel executed h =
      emuLoop turn ⟨entry', stopAt, 0⟩ fuel executed' h := by
  induction fuel with
  | zero => exact fun {_ _ _} => rfl
  | succ fuel ih =>
    intro executed executed' h
    by_cases hhalts : h.Halts stopAt
    · rw [emuLoop_done (Or.inr hhalts), emuLoop_done (Or.inr hhalts)]
    · rcases hturn : turn h with ⟨_ | error, next⟩
      · rw [emuLoop_next (Or.inl rfl) hhalts hturn, emuLoop_next (Or.inl rfl) hhalts hturn,
          @ih (executed + 1) (executed' + 1)]
      · rw [emuLoop_left (Or.inl rfl) hhalts hturn, emuLoop_left (Or.inl rfl) hhalts hturn]

/-- How a loop ends behind its turns. -/
inductive Ends (turn : Hosted ω → Option CpueaxhErr × Hosted ω) (stopAt : U64) (count n : ℕ)
    (last : Hosted ω) : CpueaxhErr × Hosted ω → Prop where
  | counted (hcount : n = count) (hgo : ¬ last.Halts stopAt) :
    Ends turn stopAt count n last (cpueaxhErrOk, last)
  | halted (hcount : n ≤ count) (hhalts : last.Halts stopAt) :
    Ends turn stopAt count n last (cpueaxhErrOk, last)
  | left {error : CpueaxhErr} {behind : Hosted ω} (hcount : n < count)
    (hgo : ¬ last.Halts stopAt) (hturn : turn last = (some error, behind)) :
    Ends turn stopAt count n last (error, behind)

/-- **A loop with a count ends**, with at most that many turns that go on. -/
theorem emuLoop_ends (hcount : count ≠ 0) : ∀ (n : ℕ) {executed fuel : ℕ} {h : Hosted ω},
    executed + n = count → n < fuel → ∃ m ≤ n, ∃ last out, turns turn stopAt m h = some last ∧
      Ends turn stopAt n m last out ∧
      emuLoop turn ⟨entry, stopAt, count⟩ fuel executed h = some out := by
  intro n
  -- the induction is on what is left of the count
  induction n with
  | zero =>
    intro executed fuel h hsum hfuel
    obtain ⟨fuel, rfl⟩ : ∃ f, fuel = f + 1 := ⟨fuel - 1, by omega⟩
    refine ⟨0, le_rfl, h, _, rfl, ?_, emuLoop_done (Or.inl (by omega))⟩
    by_cases hhalts : h.Halts stopAt
    · exact .halted le_rfl hhalts
    · exact .counted rfl hhalts
  | succ n ih =>
    intro executed fuel h hsum hfuel
    obtain ⟨fuel, rfl⟩ : ∃ f, fuel = f + 1 := ⟨fuel - 1, by omega⟩
    by_cases hhalts : h.Halts stopAt
    · exact ⟨0, Nat.zero_le _, h, _, rfl, .halted (Nat.zero_le _) hhalts,
        emuLoop_done (Or.inr hhalts)⟩
    rcases hturn : turn h with ⟨_ | error, next⟩
    · obtain ⟨m, hm, last, out, hturns, hends, hloop⟩ :=
        @ih (executed + 1) fuel next (by omega) (by omega)
      refine ⟨m + 1, by omega, last, out, turns_succ.mpr ⟨hhalts, next, hturn, hturns⟩, ?_, ?_⟩
      · cases hends with
        | counted hm hgo => exact .counted (by omega) hgo
        | halted hm hhalts => exact .halted (by omega) hhalts
        | left hm hgo hleft => exact .left (by omega) hgo hleft
      · exact (emuLoop_next (by omega) hhalts hturn).trans hloop
    · exact ⟨0, Nat.zero_le _, h, _, rfl, .left (Nat.succ_pos n) hhalts hturn,
        emuLoop_left (by omega) hhalts hturn⟩

/-! ## A second call -/

/-- A call behind another one begins as that one did: it takes the same loop with the same code
hooks, and finds no exception to clear. -/
structure Resumes (h stopped : Hosted ω) : Prop where
  plain : stopped.isPlain = h.isPlain
  flags : stopped.flags = h.flags
  clear : stopped.context.exception = ⟨cpuExceptionNone, 0⟩

variable {isa : InstructionSet} {p : HostProgram ω}

/-- It starts in the state that the first one left. -/
theorem Resumes.prepare (hresumes : h.Resumes h') (hstop : h'.shared.stopRequested = false)
    (count : ℕ) : h'.prepare ⟨0, stopAt, count⟩ = h' := by
  have hclean : h'.context.clearException = h'.context := by
    unfold CpuContext.clearException
    rw [← hresumes.clear]
  have hengine : h'.shared.engine.prepare ⟨0, stopAt, count⟩ = h'.shared.engine := by
    unfold Engine.prepare
    simp only [ne_eq, not_true_eq_false, if_false]
    change h'.shared.engine.setContext h'.context.clearException = _
    rw [hclean]
    rfl
  unfold Hosted.prepare
  rw [hengine, ← hstop]

theorem Resumes.turnFrom (hresumes : h.Resumes h') : h'.turnFrom isa p = h.turnFrom isa p := by
  unfold Hosted.turnFrom
  rw [hresumes.plain, hresumes.flags]

/-! ## The two laws -/

/-- **A call with a count ends** behind at most that many turns that go on: because of the count,
at the stop address, because a callback has requested a stop, or with the result of the turn that
left the loop. -/
theorem emuStart_counted (isa : InstructionSet) (p : HostProgram ω) (h : Hosted ω)
    {request : Engine.EmuRequest} (hcount : request.count ≠ 0) {fuel : ℕ}
    (hfuel : request.count < fuel) : ∃ m ≤ request.count, ∃ last out,
      turns (h.turnFrom isa p) request.stopAt m (h.prepare request) = some last ∧
        Ends (h.turnFrom isa p) request.stopAt request.count m last out ∧
        h.emuStart isa p request fuel = some out :=
  emuLoop_ends hcount request.count (Nat.zero_add _) hfuel

/-- **A call may be cut in two.**  Let a call with a count `m` succeed.  Either something else than
its count has ended it, and every call with a greater count or with none ends there as well; or it
has made its `m` turns, and a call with a greater count or with none goes on, behind these turns, as
a second call does, that is made without an entry where the first one ended and begins as the first
one did. -/
theorem emuStart_split (isa : InstructionSet) (p : HostProgram ω) {h stopped : Hosted ω}
    {entry stopAt : U64} {m : ℕ} (hm : m ≠ 0)
    (hfirst : h.emuStart isa p ⟨entry, stopAt, m⟩ (m + 1) = some (cpueaxhErrOk, stopped)) :
    (∃ k ≤ m, ∀ fuel, (∀ n, h.emuStart isa p ⟨entry, stopAt, m + n⟩ (k + 1 + fuel) =
        some (cpueaxhErrOk, stopped)) ∧
      h.emuStart isa p ⟨entry, stopAt, 0⟩ (k + 1 + fuel) = some (cpueaxhErrOk, stopped)) ∨
    (h.Resumes stopped → ∀ fuel,
      (∀ n ≠ 0, h.emuStart isa p ⟨entry, stopAt, m + n⟩ (m + fuel) =
        stopped.emuStart isa p ⟨0, stopAt, n⟩ fuel) ∧
      h.emuStart isa p ⟨entry, stopAt, 0⟩ (m + fuel) =
        stopped.emuStart isa p ⟨0, stopAt, 0⟩ fuel) := by
  obtain ⟨k, hk, last, out, hturns, hends, hloop⟩ :=
    @emuLoop_ends _ (h.turnFrom isa p) stopAt entry m hm m 0 (m + 1) (h.prepare ⟨entry, stopAt, m⟩)
      (Nat.zero_add m) (Nat.lt_succ_self m)
  obtain rfl : out = (cpueaxhErrOk, stopped) := Option.some.inj (hloop.symm.trans hfirst)
  -- the whole call goes through the same turns
  have hwhole : ∀ (count fuel : ℕ), (count = 0 ∨ k ≤ count) →
      h.emuStart isa p ⟨entry, stopAt, count⟩ (k + fuel) =
        emuLoop (h.turnFrom isa p) ⟨entry, stopAt, count⟩ fuel k last := by
    intro count fuel hcount
    have hrun := @emuLoop_turns _ (h.turnFrom isa p) stopAt last entry count fuel k 0 _ hturns
      (by omega)
    rw [Nat.zero_add] at hrun
    exact hrun
  cases hends with
  | counted hcount hgo =>
    -- only the count has ended the call, so that the second one starts where it stopped
    subst hcount
    refine Or.inr fun hresumes fuel => ?_
    have hstop : stopped.shared.stopRequested = false :=
      Bool.not_eq_true _ ▸ fun hrequested => hgo (Or.inr hrequested)
    have hsecond : ∀ n, stopped.emuStart isa p ⟨0, stopAt, n⟩ fuel =
        emuLoop (h.turnFrom isa p) ⟨0, stopAt, n⟩ fuel 0 stopped := by
      intro n
      unfold emuStart
      rw [hresumes.prepare hstop, hresumes.turnFrom]
    constructor
    · intro n hn
      -- the turns that have been made are taken off the count
      have hshift : emuLoop (h.turnFrom isa p) ⟨entry, stopAt, k + n⟩ fuel (k + 0) stopped =
          emuLoop (h.turnFrom isa p) ⟨0, stopAt, n⟩ fuel 0 stopped := emuLoop_shift hn
      rw [hsecond, hwhole _ fuel (Or.inr (Nat.le_add_right k n))]
      exact hshift
    · rw [hsecond, hwhole _ fuel (Or.inl rfl)]
      exact emuLoop_unlimited
  | halted hcount hhalts =>
    -- the loop stops here before its next turn, whatever the count is
    have hdone : ∀ count fuel, (count = 0 ∨ k ≤ count) →
        h.emuStart isa p ⟨entry, stopAt, count⟩ (k + 1 + fuel) =
          some (cpueaxhErrOk, stopped) := by
      intro count fuel hcount'
      rw [Nat.add_assoc, hwhole count (1 + fuel) hcount', Nat.add_comm 1 fuel]
      exact emuLoop_done (Or.inr hhalts)
    exact Or.inl ⟨k, hk, fun fuel => ⟨fun n => hdone (m + n) fuel (by omega),
      hdone 0 fuel (Or.inl rfl)⟩⟩
  | left hcount hgo hturn =>
    -- the turn that left the loop without an error has met a `HLT` or a request to stop
    have hleft : ∀ count fuel, (count = 0 ∨ k < count) →
        h.emuStart isa p ⟨entry, stopAt, count⟩ (k + 1 + fuel) = some (cpueaxhErrOk, stopped) := by
      intro count fuel hcount'
      rw [Nat.add_assoc, hwhole count (1 + fuel) (by omega), Nat.add_comm 1 fuel]
      exact emuLoop_left (by omega) hgo hturn
    exact Or.inl ⟨k, hk, fun fuel => ⟨fun n => hleft (m + n) fuel (by omega),
      hleft 0 fuel (Or.inl rfl)⟩⟩

/-! ## A hook behind instructions -/

/-- A callback that counts the instructions. -/
def countingHost : HostProgram ℕ where
  code := fun _ _ _ h => ([], h.shared.world + 1)
  escape := fun _ _ context _ h => ⟨[], cpueaxhErrOk, context, h.shared.world⟩
  memory := fun h => ⟨[], false, h.shared.world⟩

/-- It is called behind the instructions of a page with a `NOP` at `0x1000`. -/
def nopHosted : Hosted ℕ :=
  run Hosted.call (.opened false true nopPage 0)
    [.memory (.layout (.mapPtr 0x1000 0x1000 mmProtExec 0x5000)),
      .edit (.hookAdd 2 (some 0x100) 0 0 0)]

/-- A call for one instruction, with two turns of the loop. -/
theorem emuStart_counted_nop :
    ∃ m ≤ 1, ∃ last out,
      turns (nopHosted.turnFrom sampleSet countingHost) 0x2000 m
          (nopHosted.prepare ⟨0x1000, 0x2000, 1⟩) = some last ∧
        Ends (nopHosted.turnFrom sampleSet countingHost) 0x2000 1 m last out ∧
        nopHosted.emuStart sampleSet countingHost ⟨0x1000, 0x2000, 1⟩ 2 = some out :=
  @emuStart_counted ℕ sampleSet countingHost nopHosted ⟨0x1000, 0x2000, 1⟩ (by decide) 2 (by decide)

/-- The call for one instruction succeeds and has counted it, and another call goes on from
there. -/
theorem emuStart_split_nop :
    ∃ stopped, nopHosted.emuStart sampleSet countingHost ⟨0x1000, 0x2000, 1⟩ 2 =
        some (cpueaxhErrOk, stopped) ∧
      stopped.shared.world = 1 ∧ nopHosted.Resumes stopped ∧
      ((∃ k ≤ 1, ∀ fuel, (∀ n, nopHosted.emuStart sampleSet countingHost
            ⟨0x1000, 0x2000, 1 + n⟩ (k + 1 + fuel) = some (cpueaxhErrOk, stopped)) ∧
          nopHosted.emuStart sampleSet countingHost ⟨0x1000, 0x2000, 0⟩ (k + 1 + fuel) =
            some (cpueaxhErrOk, stopped)) ∨
        ∀ fuel, (∀ n ≠ 0, nopHosted.emuStart sampleSet countingHost
            ⟨0x1000, 0x2000, 1 + n⟩ (1 + fuel) =
              stopped.emuStart sampleSet countingHost ⟨0, 0x2000, n⟩ fuel) ∧
          nopHosted.emuStart sampleSet countingHost ⟨0x1000, 0x2000, 0⟩ (1 + fuel) =
            stopped.emuStart sampleSet countingHost ⟨0, 0x2000, 0⟩ fuel) := by
  have hseen : (nopHosted.emuStart sampleSet countingHost ⟨0x1000, 0x2000, 1⟩ 2).map (fun out =>
      (out.1, out.2.shared.world, out.2.isPlain, out.2.flags, out.2.context.exception)) =
        some (cpueaxhErrOk, 1, nopHosted.isPlain, nopHosted.flags, ⟨cpuExceptionNone, 0⟩) := by
    decide +kernel
  obtain ⟨⟨error, stopped⟩, hout, hsame⟩ := Option.map_eq_some_iff.mp hseen
  simp only [Prod.mk.injEq] at hsame
  obtain ⟨rfl, hworld, hplain, hflags, hclear⟩ := hsame
  have hresumes : nopHosted.Resumes stopped := ⟨hplain, hflags, hclear⟩
  refine ⟨stopped, hout, hworld, hresumes, ?_⟩
  exact (emuStart_split sampleSet countingHost (by decide) hout).imp_right fun h => h hresumes

end Hosted

end Cpueaxh
