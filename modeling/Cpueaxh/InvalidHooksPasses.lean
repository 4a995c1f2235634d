/-
# Passes that ask no callback

What a byte gets is a function of the engine up to its page cache, as long as no callback is
asked.  An access that needs no pointer to all of its bytes, or lies in one page without patches,
or asks no callback in its first pass, ends behind that pass.
-/
import Cpueaxh.InvalidHooksCost

namespace Cpueaxh

open HostMemory

variable {ω : Type}

/-! ## What a pass comes to -/

/-- What an access to a byte gets: a pointer, or a refusal that the callbacks are asked about, as
a protection violation or not, or the refusal of a linear address. -/
def Cpu.byteView (cpu : Cpu) (access : Access) (address : U64) : Except (Option Bool) HostPtr :=
  if cpu.context.is64BitCode && !cpuIsCanonicalAddress address then .error none
  else (judgeAccess cpu.context.isUser (accessView cpu.memory address access.perm)).mapError some

/-- A callback is there to be asked about an access. -/
def HookTable.Asks (table : HookTable) (type : HookType) (address : U64) : Prop :=
  table.installed type = true ∧ ∃ index, invalidCallback table type address index ≠ none

/-- The CPU of an engine. -/
def Hosted.cpu (h : Hosted ω) : Cpu := h.shared.engine.cpu

/-- The engine up to its page cache. -/
def Asking.Near (h : Hosted ω) (s : Asking ω) : Prop :=
  ∃ cache, s.hosted = h.setEngine { h.shared.engine with cpu := h.cpu.setCache cache } ∧
    PageCacheOk (h.cpu.memory.setCache cache)

section Near

variable {h : Hosted ω} {s : Asking ω}

theorem near_start (hcache : PageCacheOk h.cpu.memory) : (Asking.start h).Near h :=
  ⟨h.cpu.memory.pageCache, rfl, hcache⟩

theorem Asking.Near.table_eq (hs : s.Near h) : s.hosted.table = h.table := by
  obtain ⟨cache, heq, -⟩ := hs
  rw [heq]
  rfl

theorem Asking.Near.context_eq (hs : s.Near h) : s.context = h.context := by
  obtain ⟨cache, heq, -⟩ := hs
  unfold Asking.context Asking.cpu
  rw [heq]
  rfl

theorem Asking.Near.patches_eq (hs : s.Near h) :
    s.cpu.memory.patches = h.cpu.memory.patches := by
  obtain ⟨cache, heq, -⟩ := hs
  unfold Asking.cpu
  rw [heq]
  rfl

/-- An attempt judges what the table gives. -/
theorem attempt_near (hm : ManagerOk h.cpu.memory) (hs : s.Near h) (address : U64)
    (access : Access) : ∃ s' : Asking ω, s'.Near h ∧ s.attempt address access =
      (judgeAccess h.context.isUser (accessView h.cpu.memory address access.perm), s') := by
  obtain ⟨cache, heq, hcache⟩ := hs
  obtain ⟨hfst, cache', hsnd, hcache'⟩ := @mmGetPtrChecked_spec (h.cpu.memory.setCache cache)
    ⟨hm.table, hm.stored, hm.distinct⟩ hcache address access.perm
  have hcpu : s.cpu = h.cpu.setCache cache := by
    unfold Asking.cpu
    rw [heq]
    rfl
  refine ⟨(s.attempt address access).2, ⟨cache', ?_, hcache'⟩, Prod.ext ?_ rfl⟩
  · show (s.setCpu (s.cpu.attempt address access).2).hosted = _
    unfold Cpu.attempt
    rw [hcpu]
    rcases hget : mmGetPtrChecked (h.cpu.setCache cache).memory address access.perm with
      ⟨result, memory⟩
    have hmemory : memory = (h.cpu.memory.setCache cache).setCache cache' := by
      rw [← hsnd]
      exact (congrArg Prod.snd hget).symm
    dsimp only
    rw [hmemory, Asking.setCpu, heq]
    rfl
  · show (s.cpu.attempt address access).1 = _
    unfold Cpu.attempt
    rw [hcpu]
    rcases hget : mmGetPtrChecked (h.cpu.setCache cache).memory address access.perm with
      ⟨result, memory⟩
    have hresult : result = accessView (h.cpu.memory.setCache cache) address access.perm := by
      rw [← hfst]
      exact (congrArg Prod.fst hget).symm
    rw [hresult, accessView_setCache]
    rfl

variable {callbacks : InvalidCallbacks ω} {report : InvalidReport}

/-- Where no callback is there to be asked, none is. -/
theorem notify_unasked {type : HookType} (hasks : ¬ s.hosted.table.Asks type report.address) :
    cpuNotifyInvalidMemoryHook callbacks type report s = (false, s) := by
  unfold cpuNotifyInvalidMemoryHook
  split_ifs with hinstalled
  · have hslot : ∀ index, notifySlot callbacks type report (false, s) index = (false, s) := by
      intro index
      have hnone : invalidCallback s.hosted.table type report.address index = none := by
        by_contra hsome
        exact hasks ⟨hinstalled, index, hsome⟩
      unfold notifySlot
      rw [hnone]
    generalize List.finRange cpueaxhMaxHooks = slots
    induction slots with
    | nil => rfl
    | cons index slots ih => rw [List.foldl_cons, hslot, ih]
  · rfl

/-- **A byte** of an engine near another one. -/
theorem resolve_near (hm : ManagerOk h.cpu.memory) (hexc : h.context.hasException = false)
    (hs : s.Near h) (address : U64) (access : Access) :
    match h.cpu.byteView access address with
    | .ok p => ∃ s' : Asking ω, s'.Near h ∧
        s.resolve callbacks report address access = (some p, s')
    | .error none => (s.resolve callbacks report address access).1 = none
    | .error (some violation) =>
      ¬ h.table.Asks (cpuGetInvalidMemoryHookType access violation)
          (report.forByte address).address →
        (s.resolve callbacks report address access).1 = none := by
  obtain ⟨s', hs', hattempt⟩ := attempt_near hm hs address access
  have hctx := hs.context_eq
  unfold Cpu.byteView Asking.resolve cpuValidateLinearAddress
  rw [show h.cpu.context = h.context from rfl]
  simp only [hctx, hexc, Bool.false_eq_true, if_false]
  by_cases hcanon : (h.context.is64BitCode && !cpuIsCanonicalAddress address) = true
  · rw [if_pos hcanon, if_pos hcanon]
  rw [if_neg hcanon, if_neg hcanon]
  dsimp only
  cases hjudge : judgeAccess h.context.isUser (accessView h.cpu.memory address access.perm) with
  | ok p =>
    rw [hjudge] at hattempt
    refine ⟨s', hs', ?_⟩
    split_ifs
    · unfold Asking.resolveLoop
      rw [hattempt]
    · rw [hattempt]
  | error violation =>
    rw [hjudge] at hattempt
    rintro hasks
    split_ifs
    · unfold Asking.resolveLoop Asking.tryHandle
      rw [hattempt]
      dsimp only
      rw [notify_unasked (by rwa [hs'.table_eq])]
    · rw [hattempt]

end Near

/-! ## Passes that ask nobody -/

/-- A byte that lies behind the pointer to the first one. -/
def Cpu.Behind (cpu : Cpu) (access : Access) (address : U64) (p : HostPtr) (i : ℕ) : Prop :=
  cpu.byteView access (address + BitVec.ofNat 64 i) = .ok (p.add (BitVec.ofNat 64 i))

/-- The first byte that has no pointer behind that to the first one makes a pass ask nobody. -/
def HookedAccess.AsksNobody (a : HookedAccess) (h : Hosted ω) : Prop :=
  ∀ (p : HostPtr), ∀ j < a.size, (∀ i < j, h.cpu.Behind a.access a.address p i) →
    match h.cpu.byteView a.access (a.address + BitVec.ofNat 64 j) with
    | .ok q => 0 < j → q ≠ p.add (BitVec.ofNat 64 j) →
      ¬ h.table.Asks (cpuGetInvalidMemoryHookType a.access true) a.address
    | .error none => True
    | .error (some violation) =>
      ¬ h.table.Asks (cpuGetInvalidMemoryHookType a.access violation)
        (a.report.forByte (a.address + BitVec.ofNat 64 j)).address

/-- What a pass leaves if it comes to a seam that nobody is asked about. -/
def SplitUnasked (a : HookedAccess) (h : Hosted ω) (r : PtrSearch × Asking ω) : Prop :=
  ∀ current, r.1 = .split current → r.2.Near h ∧
    ¬ h.table.Asks (cpuGetInvalidMemoryHookType a.access true) a.address

section Unasked

variable {a : HookedAccess} {callbacks : InvalidCallbacks ω} {h : Hosted ω}

theorem splitUnasked_refused {s : Asking ω} : SplitUnasked a h (.refused, s) := by
  rintro current ⟨⟩

theorem splitUnasked_found {p : HostPtr} {s : Asking ω} : SplitUnasked a h (.found p, s) := by
  rintro current ⟨⟩

/-- A byte that is refused behind a run is refused without a callback. -/
theorem resolve_unasked (hm : ManagerOk h.cpu.memory) (hexc : h.context.hasException = false)
    (hnobody : a.AsksNobody h) {s : Asking ω} (hs : s.Near h) {p : HostPtr} {j : ℕ}
    (hj : j < a.size) (hrun : ∀ i < j, h.cpu.Behind a.access a.address p i) :
    (∃ (q : HostPtr) (s' : Asking ω), s'.Near h ∧
      h.cpu.byteView a.access (a.address + BitVec.ofNat 64 j) = .ok q ∧
      s.resolve callbacks a.report (a.address + BitVec.ofNat 64 j) a.access = (some q, s')) ∨
    (s.resolve callbacks a.report (a.address + BitVec.ofNat 64 j) a.access).1 = none := by
  have hbyte := @resolve_near ω h s callbacks a.report hm hexc hs
    (a.address + BitVec.ofNat 64 j) a.access
  have hhere := hnobody p j hj hrun
  rcases hview : h.cpu.byteView a.access (a.address + BitVec.ofNat 64 j) with (_ | violation) | q
  · rw [hview] at hbyte
    exact Or.inr hbyte
  · rw [hview] at hbyte hhere
    exact Or.inr (hbyte hhere)
  · rw [hview] at hbyte
    obtain ⟨s', hs', hresolve⟩ := hbyte
    exact Or.inl ⟨q, s', hs', rfl, hresolve⟩

/-- One byte more behind the first one. -/
theorem behind_succ {cpu : Cpu} {access : Access} {address : U64} {p : HostPtr} {j : ℕ}
    (hrun : ∀ i < j, cpu.Behind access address p i) (hj : cpu.Behind access address p j) :
    ∀ i < j + 1, cpu.Behind access address p i := by
  intro i hi
  rcases Nat.lt_succ_iff_lt_or_eq.mp hi with hlt | rfl
  · exact hrun i hlt
  · exact hj

/-- The bytes of a page without patches lie behind its first one. -/
theorem behind_page {cpu : Cpu} (hm : ManagerOk cpu.memory) (hpatches : cpu.memory.patches.length = 0)
    {access : Access} {address : U64} {p : HostPtr} {j : ℕ}
    (hrun : ∀ i < j, cpu.Behind access address p i) (hj : cpu.Behind access address p j) {chunk : ℕ}
    (hchunk : chunk ≤ cpuPageBytesRemaining (address + BitVec.ofNat 64 j)) :
    ∀ i < j + chunk, cpu.Behind access address p i := by
  have hview : ∀ (b : U64) (q : HostPtr), cpu.byteView access b = .ok q ↔
      grantedPtr cpu.context.is64BitCode cpu.context.isUser cpu.memory access.perm b = some q := by
    intro b q
    unfold Cpu.byteView grantedPtr
    split_ifs
    · exact ⟨nofun, nofun⟩
    · rcases judgeAccess cpu.context.isUser (accessView cpu.memory b access.perm) with v | q'
      · exact ⟨nofun, nofun⟩
      · exact ⟨fun heq => congrArg some (Except.ok.inj heq),
          fun heq => congrArg Except.ok (Option.some.inj heq)⟩
  intro i hi
  by_cases hlow : i < j
  · exact hrun i hlow
  obtain ⟨k, rfl⟩ : ∃ k, i = j + k := ⟨i - j, by omega⟩
  have hpage := grantedPtr_page hm hpatches ((hview _ _).mp hj) (j := k) (by omega)
  unfold Cpu.Behind
  rw [BitVec.ofNat_add, ← BitVec.add_assoc, ← HostPtr.add_add]
  exact (hview _ _).mpr hpage

theorem walkBytes_unasked (hm : ManagerOk h.cpu.memory) (hexc : h.context.hasException = false)
    (hnobody : a.AsksNobody h) (p : HostPtr) (left : ℕ) : ∀ (offset : ℕ) (s : Asking ω),
    s.Near h → 0 < offset → offset + left = a.size →
    (∀ i < offset, h.cpu.Behind a.access a.address p i) →
    SplitUnasked a h (Asking.walkBytes callbacks a.report a.address a.access p left offset s) := by
  induction left with
  | zero => exact fun _ _ _ _ _ _ => splitUnasked_found
  | succ left ih =>
    intro offset s hs hpos hsize hrun
    unfold Asking.walkBytes
    rcases @resolve_unasked ω a callbacks h hm hexc hnobody s hs p offset (by omega) hrun with
      ⟨q, s', hs', hview, hresolve⟩ | hnone
    · rw [hresolve]
      dsimp only
      by_cases hnext : q = p.add (BitVec.ofNat 64 offset)
      · rw [if_pos hnext]
        refine ih (offset + 1) s' hs' (by omega) (by omega) (behind_succ hrun ?_)
        rw [Cpu.Behind, hview, hnext]
      · rw [if_neg hnext]
        rintro current -
        have hhere := hnobody p offset (by omega) hrun
        rw [hview] at hhere
        exact ⟨hs', hhere hpos hnext⟩
    · generalize s.resolve callbacks a.report (a.address + BitVec.ofNat 64 offset) a.access = r
        at hnone ⊢
      obtain ⟨r, s'⟩ := r
      obtain rfl : r = none := hnone
      exact splitUnasked_refused

theorem chunk_bounds {address : U64} {size offset : ℕ} (hlt : offset < size) :
    let chunk := if cpuPageBytesRemaining address < size - offset then
      cpuPageBytesRemaining address else size - offset
    0 < chunk ∧ chunk ≤ size - offset ∧ chunk ≤ cpuPageBytesRemaining address := by
  have hremaining : 0 < cpuPageBytesRemaining address := by
    unfold cpuPageBytesRemaining
    omega
  dsimp only
  split_ifs <;> omega

theorem walkPages_unasked (hm : ManagerOk h.cpu.memory) (hexc : h.context.hasException = false)
    (hpatches : h.cpu.memory.patches.length = 0) (hnobody : a.AsksNobody h) (p : HostPtr)
    (fuel : ℕ) : ∀ (offset : ℕ) (s : Asking ω), s.Near h → 0 < offset →
    (∀ i < offset, h.cpu.Behind a.access a.address p i) →
    SplitUnasked a h
      (Asking.walkPages callbacks a.report a.address a.size a.access fuel offset (some p) s) := by
  induction fuel with
  | zero => exact fun _ _ _ _ _ => splitUnasked_found
  | succ fuel ih =>
    intro offset s hs hpos hrun
    unfold Asking.walkPages
    by_cases hlt : offset < a.size
    swap
    · rw [if_neg hlt]
      exact splitUnasked_found
    rw [if_pos hlt]
    dsimp only
    rcases @resolve_unasked ω a callbacks h hm hexc hnobody s hs p offset hlt hrun with
      ⟨q, s', hs', hview, hresolve⟩ | hnone
    · rw [hresolve]
      dsimp only
      by_cases hnext : q = p.add (BitVec.ofNat 64 offset)
      · rw [if_pos hnext]
        have hchunk := @chunk_bounds (a.address + BitVec.ofNat 64 offset) a.size offset hlt
        have hhere : h.cpu.Behind a.access a.address p offset := by rw [Cpu.Behind, hview, hnext]
        exact ih _ s' hs' (by omega) (behind_page hm hpatches hrun hhere hchunk.2.2)
      · rw [if_neg hnext]
        rintro current -
        have hhere := hnobody p offset hlt hrun
        rw [hview] at hhere
        exact ⟨hs', hhere hpos hnext⟩
    · generalize s.resolve callbacks a.report (a.address + BitVec.ofNat 64 offset) a.access = r
        at hnone ⊢
      obtain ⟨r, s'⟩ := r
      obtain rfl : r = none := hnone
      exact splitUnasked_refused

end Unasked

/-! ## Accesses that always end -/

/-- The condition under which no callbacks can hang an access: it needs no pointer to all of its
bytes, or has one byte, or lies in one page without patches, or asks no callback. -/
def HookedAccess.Safe (a : HookedAccess) (h : Hosted ω) : Prop :=
  a.onePointer = false ∨ h.context.hasException = true ∨ a.size = 1 ∨
    (h.cpu.memory.patches.length = 0 ∧ a.size ≤ cpuPageBytesRemaining a.address) ∨ a.AsksNobody h

section Safe

variable {a : HookedAccess} {callbacks : InvalidCallbacks ω} {h : Hosted ω}

/-- A pass that asks nobody. -/
theorem walk_unasked (hm : ManagerOk h.cpu.memory) (hcache : PageCacheOk h.cpu.memory)
    (hexc : h.context.hasException = false) (hnobody : a.AsksNobody h) :
    SplitUnasked a h ((Asking.start h).walk callbacks a.report a.address a.size a.access) := by
  have hzero : a.address + BitVec.ofNat 64 0 = a.address := BitVec.add_zero a.address
  have hpos := a.size_pos
  have hfirst : ∀ {p : HostPtr}, h.cpu.byteView a.access a.address = .ok p →
      h.cpu.Behind a.access a.address p 0 := by
    intro p hview
    rw [Cpu.Behind, hzero, hview]
    exact congrArg Except.ok p.add_zero.symm
  have hbyte := @resolve_unasked ω a callbacks h hm hexc hnobody _ (near_start hcache)
    HostPtr.null 0 hpos nofun
  rw [hzero] at hbyte
  unfold Asking.walk
  by_cases hpatches : (Asking.start h).cpu.memory.patches.length = 0
  · rw [if_pos hpatches]
    by_cases hpage : a.size ≤ cpuPageBytesRemaining a.address
    · rw [if_pos hpage]
      rcases (Asking.start h).resolve callbacks a.report a.address a.access with ⟨_ | p, s⟩
      · exact splitUnasked_refused
      · exact splitUnasked_found
    · rw [if_neg hpage]
      obtain ⟨fuel, hfuel⟩ : ∃ fuel, a.size = fuel + 1 := ⟨a.size - 1, by omega⟩
      rw [show Asking.walkPages callbacks a.report a.address a.size a.access a.size 0 none =
        Asking.walkPages callbacks a.report a.address a.size a.access (fuel + 1) 0 none by
          rw [← hfuel]]
      unfold Asking.walkPages
      rw [if_pos hpos]
      dsimp only
      rw [hzero]
      rcases hbyte with ⟨p, s, hs, hview, hresolve⟩ | hnone
      · rw [hresolve]
        have hchunk := @chunk_bounds a.address a.size 0 hpos
        have hrun := behind_page hm hpatches (j := 0) nofun (hfirst hview)
          (hchunk.2.2.trans (by rw [hzero]))
        exact walkPages_unasked hm hexc hpatches hnobody p fuel _ s hs (by omega) hrun
      · generalize (Asking.start h).resolve callbacks a.report a.address a.access = r at hnone ⊢
        obtain ⟨r, s⟩ := r
        obtain rfl : r = none := hnone
        exact splitUnasked_refused
  · rw [if_neg hpatches]
    rcases hbyte with ⟨p, s, hs, hview, hresolve⟩ | hnone
    · rw [hresolve]
      exact walkBytes_unasked hm hexc hnobody p (a.size - 1) 1 s hs one_pos (by omega)
        (behind_succ nofun (hfirst hview))
    · generalize (Asking.start h).resolve callbacks a.report a.address a.access = r at hnone ⊢
      obtain ⟨r, s⟩ := r
      obtain rfl : r = none := hnone
      exact splitUnasked_refused

/-- **Safe accesses** end whatever the callbacks do. -/
theorem settles_of_safe (hm : ManagerOk h.cpu.memory) (hcache : PageCacheOk h.cpu.memory)
    (hsafe : a.Safe h) : a.Settles callbacks h := by
  rcases hsafe with hplain | hpending | hone | ⟨hpatches, hpage⟩ | hnobody
  · exact settles_plain hplain
  · apply settles_pass
    intro hclear
    rw [hpending] at hclear
    cases hclear
  · apply settles_pass
    rintro - current s hwalk
    have hremaining : 1 ≤ cpuPageBytesRemaining a.address := by
      unfold cpuPageBytesRemaining
      omega
    unfold Asking.walk at hwalk
    rw [hone, if_pos hremaining] at hwalk
    generalize (Asking.start h).resolve callbacks a.report a.address a.access = r at hwalk
    rcases r with ⟨_ | p, s'⟩ <;> split_ifs at hwalk <;> cases hwalk
  · apply settles_pass
    rintro - current s hwalk
    unfold Asking.walk at hwalk
    rw [if_pos hpage, if_pos (show (Asking.start h).cpu.memory.patches.length = 0 from hpatches)]
      at hwalk
    generalize (Asking.start h).resolve callbacks a.report a.address a.access = r at hwalk
    rcases r with ⟨_ | p, s'⟩ <;> cases hwalk
  · apply settles_pass
    intro hexc current s hwalk
    have hsplit := @walk_unasked ω a callbacks h hm hcache hexc hnobody current
    rw [hwalk] at hsplit
    obtain ⟨hnear, hasks⟩ := hsplit rfl
    exact @notify_unasked ω s callbacks a.report _ (by rwa [hnear.table_eq])

end Safe

end Cpueaxh
