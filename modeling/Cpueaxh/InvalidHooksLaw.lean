/-
# Which accesses the callbacks for invalid accesses cannot hang

An access that needs one pointer starts again when the callbacks claim to have handled a seam.
Where its first pass asks a callback, some callbacks leave an engine behind in which each byte
has a pointer that lies apart, and the access never ends.
-/
import Cpueaxh.InvalidHooksPasses
import Cpueaxh.InPlaceLaw

namespace Cpueaxh

open HostMemory

variable {ω : Type}

/-! ## Accesses that some callbacks hang -/

/-- The answer of callbacks that leave one engine behind and claim to have handled everything. -/
def trapping (trap : Hosted ω) : InvalidCallbacks ω := fun _ _ _ _ _ => (true, trap)

/-- A patch of one byte. -/
def trapPatch (block : ℕ) (address : U64) : PatchEntry :=
  { handle := 0, address := address, size := 1, data := .heap block 0 }

/-- A memory in which all bytes of an access have one pointer. -/
def trapMemory (address : U64) (size block : ℕ) : MemoryManager :=
  { mmInit (HostMemory.initial (fun _ => 0) fun _ => false) with
    hostReadPassthrough := true
    hostWritePassthrough := true
    hostExecPassthrough := true
    patches := (List.range size).map fun i => trapPatch block (address + BitVec.ofNat 64 i)
    patchMinAddress := 0
    patchMaxAddress := BitVec.allOnes 64 }

/-- A table with hooks of a type for all addresses. -/
def trapTable (type : HookType) : HookTable :=
  { HookTable.empty with
    hooks := fun _ => some
      { handle := 0, type := type, codeCallback := none, memCallback := none,
        invalidMemCallback := some 0, userData := 0, first := 0, last := 0 }
    hookTypeCounts := fun _ => 1 }

/-- An engine in which an access comes to a seam. -/
def trap (a : HookedAccess) (block : ℕ) (h : Hosted ω) : Hosted ω :=
  { table := trapTable (cpuGetInvalidMemoryHookType a.access true)
    shared :=
      { h.shared with
        engine :=
          { h.shared.engine with
            cpu :=
              { context := initCpuContext true
                memory := trapMemory a.address a.size block
                hooks := Hooks.none
                asked := 0 } } } }

section Trap

variable (a : HookedAccess) (block : ℕ) (h : Hosted ω)

theorem managerOk_trap : ManagerOk (trap a block h).cpu.memory :=
  have hinit := managerOk_mmInit (HostMemory.initial (fun _ => 0) fun _ => false)
  ⟨hinit.table, hinit.stored, hinit.distinct⟩

theorem pageCacheOk_trap : PageCacheOk (trap a block h).cpu.memory := pageCacheOk_of_zero rfl

/-- An access that a patch serves. -/
theorem checkInfo_patch {mgr : MemoryManager} {address : U64} {perm : U32} {info : MmAccessInfo}
    {patch : PatchEntry} (hgranted : ¬ info.perms &&& perm = 0)
    (hpatches : (mgr.patches.length != 0) = true) (hhost : (mmHostPassthroughPerms mgr != 0) = true)
    (hfind : mmFindPatch mgr address = some patch) :
    checkInfo mgr address perm (some info) =
      { status := .ok, ptr := patch.data.add (address - patch.address), cpuAttrs := info.cpuAttrs } := by
  unfold checkInfo
  dsimp only
  rw [if_neg hgranted, hpatches, hhost, if_pos (by decide), hfind]

/-- Each byte of the access has the same pointer. -/
theorem byteView_trap {i : ℕ} (hi : i < a.size) :
    (trap a block h).cpu.byteView a.access (a.address + BitVec.ofNat 64 i) = .ok (.heap block 0) := by
  have hmode : (trap a block h).cpu.context.is64BitCode = false := rfl
  have hperms : mmHostPassthroughPerms (trap a block h).cpu.memory =
      mmProtRead ||| mmProtWrite ||| mmProtExec := rfl
  have hregion : ∀ address, mmFindRegion (trap a block h).cpu.memory address = none :=
    fun _ => rfl
  -- every byte of the access has a patch of its own, and all lead to one byte of the block
  obtain ⟨patch, hpatch, hptr⟩ : ∃ patch,
      mmFindPatch (trap a block h).cpu.memory (a.address + BitVec.ofNat 64 i) = some patch ∧
      patch.data.add (a.address + BitVec.ofNat 64 i - patch.address) = .heap block 0 := by
    generalize hx : a.address + BitVec.ofNat 64 i = x
    have hcovers : ∀ y, (trapPatch block y).covers x = true ↔ y = x := by
      intro y
      unfold PatchEntry.covers trapPatch
      simp only [Bool.and_eq_true, bne_iff_ne, decide_eq_true_eq]
      rw [show y + 1 - 1 = y from BitVec.add_sub_cancel y 1]
      refine ⟨fun hle => BitVec.le_antisymm hle.1.2 hle.2, ?_⟩
      rintro rfl
      exact ⟨⟨by decide, BitVec.le_refl _⟩, BitVec.le_refl _⟩
    have hbounds : mmPatchBoundsMayContain (trap a block h).cpu.memory x = true := by
      have hlength : (trap a block h).cpu.memory.patches.length = a.size := by
        show ((List.range a.size).map _).length = a.size
        rw [List.length_map, List.length_range]
      unfold mmPatchBoundsMayContain
      rw [hlength, Bool.and_eq_true, Bool.and_eq_true, bne_iff_ne, decide_eq_true_eq,
        decide_eq_true_eq]
      exact ⟨⟨a.size_pos.ne', Nat.zero_le _⟩, Nat.le_sub_one_of_lt x.isLt⟩
    unfold mmFindPatch
    rw [if_pos hbounds]
    cases hfind : (trap a block h).cpu.memory.patches.find? fun p => p.covers x with
    | none =>
      have hall := List.find?_eq_none.mp hfind _
        (List.mem_map_of_mem (List.mem_range.mpr hi))
      exact absurd ((hcovers _).mpr hx) hall
    | some patch =>
      obtain ⟨j, -, rfl⟩ := List.mem_map.mp (List.mem_of_find?_eq_some hfind)
      have hj := (hcovers _).mp (@List.find?_some _ (fun p : PatchEntry => p.covers x) _ _ hfind)
      refine ⟨_, rfl, ?_⟩
      show (HostPtr.heap block 0).add (x - (a.address + BitVec.ofNat 64 j)) = _
      rw [hj, BitVec.sub_self]
      exact HostPtr.add_zero _
  have haccess : accessView (trap a block h).cpu.memory (a.address + BitVec.ofNat 64 i)
      a.access.perm = { status := .ok, ptr := .heap block 0, cpuAttrs := mmCpuAttrUser } := by
    have hlength : ((trap a block h).cpu.memory.patches.length != 0) = true := by
      show (((List.range a.size).map _).length != 0) = true
      rw [List.length_map, List.length_range]
      exact bne_iff_ne.mpr a.size_pos.ne'
    unfold accessView pageEntry
    rw [hregion, hperms]
    dsimp only
    rw [if_pos (by decide), Option.map_some]
    refine (checkInfo_patch ?_ hlength (by rw [hperms]; decide) hpatch).trans ?_
    · show ¬ (mmProtRead ||| mmProtWrite ||| mmProtExec) &&& a.access.perm = 0
      cases a.access <;> decide
    · rw [hptr]
      rfl
  unfold Cpu.byteView
  rw [hmode, haccess]
  rfl

theorem asks_trap (type : HookType) (address : U64)
    (htype : type = cpuGetInvalidMemoryHookType a.access true) :
    (trap a block h).table.Asks type address := by
  subst htype
  refine ⟨by rfl, 0, ?_⟩
  unfold invalidCallback
  simp [trap, trapTable, cpueaxhRangeContains]

end Trap

section Hang

variable {a : HookedAccess} {h t : Hosted ω} {report : InvalidReport}

/-- A callback that is there to be asked is asked. -/
theorem notify_answered {callbacks : InvalidCallbacks ω} {P : Hosted ω → Prop} {type : HookType}
    {s : Asking ω} (hasks : s.hosted.table.Asks type report.address)
    (hanswer : ∀ callback userData,
      (callbacks callback userData type report s.hosted).1 = true ∧
        P (callbacks callback userData type report s.hosted).2)
    (hstays : ∀ callback userData h', P h' → P (callbacks callback userData type report h').2) :
    ∃ s', cpuNotifyInvalidMemoryHook callbacks type report s = (true, s') ∧ P s'.hosted := by
  -- once a callback has claimed the access, those behind it change nothing in that
  have hrest : ∀ (slots : List HookSlot) (s₁ : Asking ω), P s₁.hosted → ∃ s',
      slots.foldl (notifySlot callbacks type report) (true, s₁) = (true, s') ∧ P s'.hosted := by
    intro slots
    induction slots with
    | nil => exact fun s₁ hs₁ => ⟨s₁, rfl, hs₁⟩
    | cons index slots ih =>
      intro s₁ hs₁
      rw [List.foldl_cons]
      unfold notifySlot
      dsimp only
      rcases invalidCallback s₁.hosted.table type report.address index with _ | ⟨callback, userData⟩
      · exact ih s₁ hs₁
      · exact ih _ (hstays callback userData s₁.hosted hs₁)
  -- the first hook for the address claims it
  have hfirst : ∀ slots : List HookSlot,
      (∃ index ∈ slots, invalidCallback s.hosted.table type report.address index ≠ none) → ∃ s',
      slots.foldl (notifySlot callbacks type report) (false, s) = (true, s') ∧ P s'.hosted := by
    intro slots
    induction slots with
    | nil =>
      rintro ⟨index, hmem, -⟩
      cases hmem
    | cons index slots ih =>
      rintro ⟨there, hmem, hsome⟩
      rw [List.foldl_cons]
      rcases hhere : invalidCallback s.hosted.table type report.address index with
        _ | ⟨callback, userData⟩
      · have hslot : notifySlot callbacks type report (false, s) index = (false, s) := by
          unfold notifySlot
          rw [hhere]
        rw [hslot]
        rcases List.mem_cons.mp hmem with rfl | hlater
        · exact absurd hhere hsome
        · exact ih ⟨there, hlater, hsome⟩
      · obtain ⟨htrue, hnext⟩ := hanswer callback userData
        have hslot : notifySlot callbacks type report (false, s) index =
            (true, { hosted := (callbacks callback userData type report s.hosted).2,
                     calls := s.calls + 1 }) := by
          unfold notifySlot
          rw [hhere]
          dsimp only
          rw [htrue]
          rfl
        rw [hslot]
        exact hrest slots _ hnext
  obtain ⟨hinstalled, index, hsome⟩ := hasks
  unfold cpuNotifyInvalidMemoryHook
  rw [if_pos hinstalled]
  exact hfirst _ ⟨index, List.mem_finRange index, hsome⟩

/-- The callbacks that leave one engine behind have been asked. -/
theorem notify_trapping {type : HookType} {s : Asking ω}
    (hasks : s.hosted.table.Asks type report.address) :
    ∃ calls, cpuNotifyInvalidMemoryHook (trapping t) type report s =
      (true, { hosted := t, calls := calls }) := by
  obtain ⟨⟨hosted, calls⟩, hnotify, rfl⟩ := @notify_answered ω report (trapping t) (· = t) type s
    hasks (fun _ _ => ⟨rfl, rfl⟩) fun _ _ _ _ => rfl
  exact ⟨calls, hnotify⟩

/-- The pointer of a byte that is viewed. -/
theorem judge_of_byteView {cpu : Cpu} {access : Access} {address : U64} {q : HostPtr}
    (hview : cpu.byteView access address = .ok q) :
    judgeAccess cpu.context.isUser (accessView cpu.memory address access.perm) = .ok q := by
  unfold Cpu.byteView at hview
  split_ifs at hview
  generalize judgeAccess cpu.context.isUser (accessView cpu.memory address access.perm) = judged
    at hview ⊢
  rcases judged with v | q'
  · cases hview
  · exact congrArg Except.ok (Except.ok.inj hview)

/-- A byte that a callback is asked about gets the pointer that is there then. -/
theorem resolve_asked (hm : ManagerOk h.cpu.memory) (hexc : h.context.hasException = false)
    (ht : ManagerOk t.cpu.memory) (htcache : PageCacheOk t.cpu.memory) {s : Asking ω}
    (hs : s.Near h) {address : U64} {access : Access} {violation : Bool}
    (hview : h.cpu.byteView access address = .error (some violation))
    (hasks : h.table.Asks (cpuGetInvalidMemoryHookType access violation)
      (report.forByte address).address) {q : HostPtr}
    (htview : t.cpu.byteView access address = .ok q) :
    ∃ s' : Asking ω, s'.Near t ∧
      s.resolve (trapping t) report address access = (some q, s') := by
  obtain ⟨s₁, hs₁, hattempt⟩ := attempt_near hm hs address access
  have hnear : ∀ calls, (({ hosted := t, calls := calls } : Asking ω)).Near t :=
    fun calls => ⟨t.cpu.memory.pageCache, rfl, htcache⟩
  have hhooks : s.hasInvalidMemoryHooks access = true := by
    unfold Asking.hasInvalidMemoryHooks
    rw [hs.table_eq, Bool.or_eq_true]
    rcases violation with _ | _
    · exact Or.inl hasks.1
    · exact Or.inr hasks.1
  unfold Cpu.byteView at hview
  rw [show h.cpu.context = h.context from rfl] at hview
  by_cases hcanon : (h.context.is64BitCode && !cpuIsCanonicalAddress address) = true
  · rw [if_pos hcanon] at hview
    cases hview
  rw [if_neg hcanon] at hview
  have hjudge : judgeAccess h.context.isUser (accessView h.cpu.memory address access.perm) =
      .error violation := by
    generalize judgeAccess h.context.isUser (accessView h.cpu.memory address access.perm) = judged
      at hview ⊢
    rcases judged with v | p
    · exact congrArg Except.error (Option.some.inj (Except.error.inj hview))
    · cases hview
  rw [hjudge] at hattempt
  obtain ⟨calls, hasked⟩ := @notify_trapping ω t (report.forByte address)
    (cpuGetInvalidMemoryHookType access violation) s₁ (by rwa [hs₁.table_eq])
  obtain ⟨s₂, hs₂, hagain⟩ := attempt_near ht (hnear calls) address access
  refine ⟨s₂, hs₂, ?_⟩
  unfold Asking.resolve cpuValidateLinearAddress
  simp only [hs.context_eq, hexc, Bool.false_eq_true, if_false, if_neg hcanon, hhooks, if_true]
  unfold Asking.resolveLoop Asking.tryHandle
  rw [hattempt]
  dsimp only
  rw [hasked]
  dsimp only
  unfold Asking.resolveLoop
  rw [hagain, show t.context = t.cpu.context from rfl, judge_of_byteView htview]

/-- A pointer that is not behind itself. -/
theorem heap_ne_add {block offset : ℕ} (hpos : 0 < offset) (hlt : offset < 2 ^ 64) :
    HostPtr.heap block 0 ≠ (HostPtr.heap block 0).add (BitVec.ofNat 64 offset) := by
  intro heq
  have hoffset : (0 : U64) = 0 + BitVec.ofNat 64 offset := (HostPtr.heap.inj heq).2
  rw [show (0 : U64) + BitVec.ofNat 64 offset = BitVec.ofNat 64 offset from BitVec.zero_add _] at hoffset
  have hnat := congrArg BitVec.toNat hoffset
  rw [BitVec.toNat_ofNat, Nat.mod_eq_of_lt hlt] at hnat
  exact hpos.ne hnat

variable {block : ℕ}

/-- A byte of the trap. -/
theorem resolve_trap {callbacks : InvalidCallbacks ω} {s : Asking ω} (hs : s.Near (trap a block h))
    {i : ℕ} (hi : i < a.size) : ∃ s' : Asking ω, s'.Near (trap a block h) ∧
      s.resolve callbacks report (a.address + BitVec.ofNat 64 i) a.access =
        (some (.heap block 0), s') := by
  have hbyte := @resolve_near ω (trap a block h) s callbacks report (managerOk_trap a block h) rfl hs
    (a.address + BitVec.ofNat 64 i) a.access
  rw [byteView_trap a block h hi] at hbyte
  exact hbyte

/-- The walk over the bytes that are left in the trap. -/
theorem walkBytes_trap {callbacks : InvalidCallbacks ω} {s : Asking ω}
    (hs : s.Near (trap a block h)) {left : ℕ} (hsize : left + 2 = a.size) :
    ∃ (current : U64) (s' : Asking ω), s'.Near (trap a block h) ∧
      Asking.walkBytes callbacks a.report a.address a.access (.heap block 0) (left + 1) 1 s =
        (.split current, s') := by
  obtain ⟨s', hs', hbyte⟩ := @resolve_trap ω a h a.report block callbacks s hs 1 (by omega)
  refine ⟨a.address + BitVec.ofNat 64 1, s', hs', ?_⟩
  unfold Asking.walkBytes
  rw [hbyte]
  exact if_neg (heap_ne_add one_pos (by decide))

/-- The walk over the pages that are left in the trap. -/
theorem walkPages_trap {callbacks : InvalidCallbacks ω} {s : Asking ω}
    (hs : s.Near (trap a block h)) {fuel offset : ℕ} (hpos : 0 < offset) (hlt : offset < a.size) :
    ∃ (current : U64) (s' : Asking ω), s'.Near (trap a block h) ∧
      Asking.walkPages callbacks a.report a.address a.size a.access (fuel + 1) offset
        (some (.heap block 0)) s = (.split current, s') := by
  obtain ⟨s', hs', hbyte⟩ := @resolve_trap ω a h a.report block callbacks s hs offset hlt
  refine ⟨a.address + BitVec.ofNat 64 offset, s', hs', ?_⟩
  unfold Asking.walkPages
  rw [if_pos hlt]
  dsimp only
  rw [hbyte]
  exact if_neg (heap_ne_add hpos (hlt.trans a.size_lt))

/-- **In the trap** an access never ends. -/
theorem contiguousPtr_trap (htwo : 2 ≤ a.size) (fuel : ℕ) : ∀ s : Asking ω,
    s.Near (trap a block h) →
    Asking.contiguousPtr (trapping (trap a block h)) a.report a.address a.size a.access fuel s =
      none := by
  have hzero : a.address + BitVec.ofNat 64 0 = a.address := BitVec.add_zero a.address
  obtain ⟨left, hleft⟩ : ∃ left, left + 2 = a.size := ⟨a.size - 2, by omega⟩
  induction fuel with
  | zero => exact fun _ _ => rfl
  | succ fuel ih =>
    intro s hs
    have hpatches : ¬ s.cpu.memory.patches.length = 0 := by
      rw [hs.patches_eq]
      show ¬ ((List.range a.size).map _).length = 0
      rw [List.length_map, List.length_range]
      omega
    obtain ⟨s₁, hs₁, hbyte⟩ := @resolve_trap ω a h a.report block (trapping (trap a block h)) s hs 0
      (by omega)
    rw [hzero] at hbyte
    obtain ⟨current, s₂, hs₂, hrest⟩ := @walkBytes_trap ω a h block (trapping (trap a block h)) s₁ hs₁
      left hleft
    have hwalk : s.walk (trapping (trap a block h)) a.report a.address a.size a.access =
        (.split current, s₂) := by
      unfold Asking.walk
      rw [if_neg hpatches, hbyte]
      dsimp only
      rw [show a.size - 1 = left + 1 by omega, hrest]
    obtain ⟨calls, hasked⟩ := @notify_trapping ω (trap a block h) a.report
      (cpuGetInvalidMemoryHookType a.access true) s₂
      (by rw [hs₂.table_eq]; exact asks_trap a block h _ _ rfl)
    have hguard : ¬ (a.size = 0 || s.context.hasException) = true := by
      rw [hs.context_eq, decide_eq_false a.size_pos.ne']
      exact Bool.false_ne_true
    unfold Asking.contiguousPtr Asking.tryHandle
    rw [if_neg hguard, hwalk]
    dsimp only
    rw [hasked]
    exact ih _ ⟨(trap a block h).cpu.memory.pageCache, rfl, pageCacheOk_trap a block h⟩

/-- The byte at which a pass asks a callback: it lies apart, or is refused. -/
structure Obstacle (a : HookedAccess) (h : Hosted ω) (p : HostPtr) (j : ℕ) : Prop where
  lt : j < a.size
  run : ∀ i < j, h.cpu.Behind a.access a.address p i
  asked : (∃ q, h.cpu.byteView a.access (a.address + BitVec.ofNat 64 j) = .ok q ∧ 0 < j ∧
      q ≠ p.add (BitVec.ofNat 64 j) ∧
      h.table.Asks (cpuGetInvalidMemoryHookType a.access true) a.address) ∨
    ∃ violation, h.cpu.byteView a.access (a.address + BitVec.ofNat 64 j) =
        .error (some violation) ∧
      h.table.Asks (cpuGetInvalidMemoryHookType a.access violation)
        (a.report.forByte (a.address + BitVec.ofNat 64 j)).address

theorem exists_obstacle (hasks : ¬ a.AsksNobody h) : ∃ p j, Obstacle a h p j := by
  by_contra hnone
  push Not at hnone
  refine hasks fun p j hj hrun => ?_
  rcases hview : h.cpu.byteView a.access (a.address + BitVec.ofNat 64 j) with (_ | violation) | q
  · trivial
  · exact fun hhere => hnone p j ⟨hj, hrun, Or.inr ⟨violation, hview, hhere⟩⟩
  · exact fun hpos hne hhere => hnone p j ⟨hj, hrun, Or.inl ⟨q, hview, hpos, hne, hhere⟩⟩

/-- The byte that makes a pass ask gets a pointer that lies apart. -/
theorem Obstacle.resolve (hm : ManagerOk h.cpu.memory) (hexc : h.context.hasException = false)
    {p : HostPtr} {j : ℕ} (hj : Obstacle a h p j) (hblock : ∀ x, p.add x ≠ .heap block 0)
    {s : Asking ω} (hs : s.Near h) : ∃ (q : HostPtr) (s' : Asking ω),
      s.resolve (trapping (trap a block h)) a.report (a.address + BitVec.ofNat 64 j) a.access =
        (some q, s') ∧ q ≠ p.add (BitVec.ofNat 64 j) ∧
      (0 < j ∧ s'.Near h ∧ h.table.Asks (cpuGetInvalidMemoryHookType a.access true) a.address ∨
        q = .heap block 0 ∧ s'.Near (trap a block h)) := by
  rcases hj.asked with ⟨q, hview, hpos, hne, hasks⟩ | ⟨violation, hview, hasks⟩
  · have hbyte := @resolve_near ω h s (trapping (trap a block h)) a.report hm hexc hs
      (a.address + BitVec.ofNat 64 j) a.access
    rw [hview] at hbyte
    obtain ⟨s', hs', hresolve⟩ := hbyte
    exact ⟨q, s', hresolve, hne, Or.inl ⟨hpos, hs', hasks⟩⟩
  · obtain ⟨s', hs', hresolve⟩ := resolve_asked hm hexc (managerOk_trap a block h)
      (pageCacheOk_trap a block h) hs hview hasks (byteView_trap a block h hj.lt)
    exact ⟨.heap block 0, s', hresolve, (hblock _).symm, Or.inr ⟨rfl, hs'⟩⟩

/-- A byte before the one that makes a pass ask. -/
theorem Obstacle.before (hm : ManagerOk h.cpu.memory) (hexc : h.context.hasException = false)
    {p : HostPtr} {j i : ℕ} (hj : Obstacle a h p j) (hi : i < j) (callbacks : InvalidCallbacks ω)
    {s : Asking ω} (hs : s.Near h) : ∃ s' : Asking ω, s'.Near h ∧
      s.resolve callbacks a.report (a.address + BitVec.ofNat 64 i) a.access =
        (some (p.add (BitVec.ofNat 64 i)), s') := by
  have hbyte := @resolve_near ω h s callbacks a.report hm hexc hs
    (a.address + BitVec.ofNat 64 i) a.access
  rw [show h.cpu.byteView a.access (a.address + BitVec.ofNat 64 i) = _ from hj.run i hi] at hbyte
  exact hbyte

/-- The byte that makes a pass ask does not lie behind the others. -/
theorem Obstacle.not_behind {p : HostPtr} {j : ℕ} (hj : Obstacle a h p j) :
    ¬ h.cpu.Behind a.access a.address p j := by
  intro hbehind
  unfold Cpu.Behind at hbehind
  rcases hj.asked with ⟨q, hview, -, hne, -⟩ | ⟨violation, hview, -⟩
  · rw [hview] at hbehind
    exact hne (Except.ok.inj hbehind)
  · rw [hview] at hbehind
    cases hbehind

/-- A byte lies apart, and the state behind it has a property. -/
def Apart (a : HookedAccess) (h : Hosted ω) (callbacks : InvalidCallbacks ω) (p : HostPtr) (j : ℕ)
    (P : Asking ω → Prop) : Prop :=
  ∀ s : Asking ω, s.Near h → ∃ (q : HostPtr) (s' : Asking ω),
    s.resolve callbacks a.report (a.address + BitVec.ofNat 64 j) a.access = (some q, s') ∧
      q ≠ p.add (BitVec.ofNat 64 j) ∧ P s'

section Apart

variable {callbacks : InvalidCallbacks ω} {P : Asking ω → Prop} {p : HostPtr} {j : ℕ}

theorem walkBytes_apart (hm : ManagerOk h.cpu.memory) (hexc : h.context.hasException = false)
    (hj : Obstacle a h p j) (hapart : Apart a h callbacks p j P) (left : ℕ) :
    ∀ (offset : ℕ) (s : Asking ω), s.Near h → 0 < offset → offset ≤ j → offset + left = a.size →
    ∃ current s', Asking.walkBytes callbacks a.report a.address a.access p left offset s =
      (.split current, s') ∧ P s' := by
  have hlt := hj.lt
  induction left with
  | zero =>
    intro offset s _ _ hle hsize
    omega
  | succ left ih =>
    intro offset s hs hpos hle hsize
    unfold Asking.walkBytes
    rcases Nat.lt_or_eq_of_le hle with hbefore | rfl
    · obtain ⟨s', hs', hbyte⟩ := hj.before hm hexc hbefore callbacks hs
      rw [hbyte]
      dsimp only
      rw [if_pos rfl]
      exact ih (offset + 1) s' hs' (by omega) (by omega) (by omega)
    · obtain ⟨q, s', hbyte, hne, hend⟩ := hapart s hs
      rw [hbyte]
      dsimp only
      rw [if_neg hne]
      exact ⟨_, s', rfl, hend⟩

theorem walkPages_apart (hm : ManagerOk h.cpu.memory) (hexc : h.context.hasException = false)
    (hpatches : h.cpu.memory.patches.length = 0) (hj : Obstacle a h p j)
    (hapart : Apart a h callbacks p j P) (fuel : ℕ) : ∀ (offset : ℕ) (s : Asking ω),
    s.Near h → 0 < offset → offset ≤ j → j < offset + fuel →
    ∃ current s', Asking.walkPages callbacks a.report a.address a.size a.access fuel offset
      (some p) s = (.split current, s') ∧ P s' := by
  have hlt := hj.lt
  induction fuel with
  | zero =>
    intro offset s _ _ hle hfuel
    omega
  | succ fuel ih =>
    intro offset s hs hpos hle hfuel
    unfold Asking.walkPages
    rw [if_pos (lt_of_le_of_lt hle hlt)]
    dsimp only
    rcases Nat.lt_or_eq_of_le hle with hbefore | rfl
    · obtain ⟨s', hs', hbyte⟩ := hj.before hm hexc hbefore callbacks hs
      rw [hbyte]
      dsimp only
      rw [if_pos rfl]
      have hchunk := @chunk_bounds (a.address + BitVec.ofNat 64 offset) a.size offset (by omega)
      have hpage := behind_page hm hpatches (fun i hi => hj.run i (hi.trans hbefore))
        (hj.run offset hbefore) hchunk.2.2
      dsimp only at hchunk hpage
      -- the page ends before the byte that makes the pass ask
      refine ih _ s' hs' (by omega) (not_lt.mp fun hinside => hj.not_behind (hpage j hinside)) ?_
      omega
    · obtain ⟨q, s', hbyte, hne, hend⟩ := hapart s hs
      rw [hbyte]
      dsimp only
      rw [if_neg hne]
      exact ⟨_, s', rfl, hend⟩

/-- **A pass** comes to the byte that lies apart. -/
theorem walk_apart (hm : ManagerOk h.cpu.memory) (hexc : h.context.hasException = false)
    (hj : Obstacle a h p j) (hpos : 0 < j) (hapart : Apart a h callbacks p j P) {s : Asking ω}
    (hs : s.Near h) :
    ∃ current s', s.walk callbacks a.report a.address a.size a.access = (.split current, s') ∧
      P s' := by
  have hzero : a.address + BitVec.ofNat 64 0 = a.address := BitVec.add_zero a.address
  have hlt := hj.lt
  obtain ⟨s₁, hs₁, hbyte⟩ := hj.before hm hexc hpos callbacks hs
  rw [hzero, show p.add (BitVec.ofNat 64 0) = p from p.add_zero] at hbyte
  unfold Asking.walk
  rw [hs.patches_eq]
  by_cases hpatches : h.cpu.memory.patches.length = 0
  · rw [if_pos hpatches]
    have hpage := @behind_page h.cpu hm hpatches a.access a.address p 0 nofun (hj.run 0 hpos)
    rw [hzero] at hpage
    have hcross : ¬ a.size ≤ cpuPageBytesRemaining a.address := fun hle =>
      hj.not_behind (hpage hle j (by omega))
    obtain ⟨fuel, hfuel⟩ : ∃ fuel, a.size = fuel + 1 := ⟨a.size - 1, by omega⟩
    rw [if_neg hcross, show Asking.walkPages callbacks a.report a.address a.size a.access a.size 0
      none = Asking.walkPages callbacks a.report a.address a.size a.access (fuel + 1) 0 none by
        rw [← hfuel]]
    unfold Asking.walkPages
    have hchunk := @chunk_bounds a.address a.size 0 a.size_pos
    rw [if_pos a.size_pos]
    dsimp only at hchunk ⊢
    rw [hzero, hbyte]
    have hrun := hpage hchunk.2.2
    exact walkPages_apart hm hexc hpatches hj hapart fuel _ s₁ hs₁ (by omega)
      (not_lt.mp fun hinside => hj.not_behind (hrun j hinside)) (by omega)
  · rw [if_neg hpatches, hbyte]
    exact walkBytes_apart hm hexc hj hapart (a.size - 1) 1 s₁ hs₁ one_pos hpos (by omega)

end Apart

/-- The first pass is stuck. -/
theorem walk_stuck (hm : ManagerOk h.cpu.memory) (hcache : PageCacheOk h.cpu.memory)
    (hexc : h.context.hasException = false) (htwo : 2 ≤ a.size)
    (hpage : ¬ (h.cpu.memory.patches.length = 0 ∧ a.size ≤ cpuPageBytesRemaining a.address))
    {p : HostPtr} {j : ℕ} (hj : Obstacle a h p j) (hblock : ∀ x, p.add x ≠ .heap block 0) :
    ∃ current s, (Asking.start h).walk (trapping (trap a block h)) a.report a.address a.size
        a.access = (.split current, s) ∧
      (s.Near h ∧ h.table.Asks (cpuGetInvalidMemoryHookType a.access true) a.address ∨
        s.Near (trap a block h)) := by
  have hzero : a.address + BitVec.ofNat 64 0 = a.address := BitVec.add_zero a.address
  have hnear : (Asking.start h).Near h := near_start hcache
  rcases Nat.eq_zero_or_pos j with rfl | hpos
  swap
  · refine walk_apart hm hexc hj hpos (fun s hs => ?_) hnear
    obtain ⟨q, s', hbyte, hne, hend⟩ := hj.resolve hm hexc hblock hs
    exact ⟨q, s', hbyte, hne, hend.imp (fun hhere => hhere.2) fun hthere => hthere.2⟩
  -- the first byte already gets the pointer of the trap
  obtain ⟨q, s, hbyte, -, ⟨hpos, -⟩ | ⟨rfl, hs⟩⟩ := hj.resolve hm hexc hblock hnear
  · exact absurd hpos (lt_irrefl 0)
  rw [hzero] at hbyte
  unfold Asking.walk
  by_cases hpatches : (Asking.start h).cpu.memory.patches.length = 0
  · have hcross : ¬ a.size ≤ cpuPageBytesRemaining a.address := fun hle => hpage ⟨hpatches, hle⟩
    obtain ⟨fuel, hfuel⟩ : ∃ fuel, a.size = fuel + 1 + 1 := ⟨a.size - 2, by omega⟩
    rw [if_pos hpatches, if_neg hcross,
      show Asking.walkPages (trapping (trap a block h)) a.report a.address a.size a.access a.size 0
        none = Asking.walkPages (trapping (trap a block h)) a.report a.address a.size a.access
          (fuel + 1 + 1) 0 none by rw [← hfuel]]
    unfold Asking.walkPages
    have hshort : cpuPageBytesRemaining a.address < a.size - 0 := by omega
    have hremaining : 0 < cpuPageBytesRemaining a.address := by
      unfold cpuPageBytesRemaining
      omega
    rw [if_pos a.size_pos]
    dsimp only
    rw [hzero, if_pos hshort, hbyte]
    obtain ⟨current, s', hs', hrest⟩ := @walkPages_trap ω a h block (trapping (trap a block h)) s hs
      fuel (0 + cpuPageBytesRemaining a.address) (by omega) (by omega)
    exact ⟨current, s', hrest, Or.inr hs'⟩
  · obtain ⟨left, hleft⟩ : ∃ left, left + 2 = a.size := ⟨a.size - 2, by omega⟩
    obtain ⟨current, s', hs', hrest⟩ := @walkBytes_trap ω a h block (trapping (trap a block h)) s hs
      left hleft
    rw [if_neg hpatches, hbyte]
    dsimp only
    rw [show a.size - 1 = left + 1 by omega]
    exact ⟨current, s', hrest, Or.inr hs'⟩

/-- A block that a pointer does not point into. -/
theorem exists_apart (p : HostPtr) : ∃ block, ∀ x, p.add x ≠ .heap block 0 := by
  cases p with
  | user address => exact ⟨0, fun _ => nofun⟩
  | heap block offset =>
    refine ⟨block + 1, fun x heq => ?_⟩
    exact absurd (HostPtr.heap.inj heq).1 (Nat.lt_succ_self block).ne

/-- **Accesses that are not safe** never end with some callbacks. -/
theorem hangs_of_not_safe (hm : ManagerOk h.cpu.memory) (hcache : PageCacheOk h.cpu.memory)
    (hsafe : ¬ a.Safe h) : ∃ callbacks : InvalidCallbacks ω, ∀ fuel,
      a.pointers callbacks fuel (Asking.start h) = none := by
  unfold HookedAccess.Safe at hsafe
  push Not at hsafe
  obtain ⟨hplain, hpending, hone, hpage, hasks⟩ := hsafe
  have htwo : 2 ≤ a.size := by
    have hpos := a.size_pos
    omega
  obtain ⟨p, j, hj⟩ := exists_obstacle hasks
  obtain ⟨block, hblock⟩ := exists_apart p
  refine ⟨trapping (trap a block h), fun fuel => ?_⟩
  have hexc : h.context.hasException = false := Bool.eq_false_iff.mpr hpending
  obtain ⟨current, s, hwalk, hs⟩ := walk_stuck hm hcache hexc htwo
    (fun hin => absurd hin.2 (not_le.mpr (hpage hin.1))) hj hblock
  have hasked : ∃ calls, cpuNotifyInvalidMemoryHook (trapping (trap a block h))
      (cpuGetInvalidMemoryHookType a.access true) a.report s =
        (true, { hosted := trap a block h, calls := calls }) := by
    rcases hs with ⟨hs, hhere⟩ | hs
    · exact @notify_trapping ω _ a.report _ s (by rwa [hs.table_eq])
    · exact @notify_trapping ω _ a.report _ s
        (by rw [hs.table_eq]; exact asks_trap a block h _ _ rfl)
  obtain ⟨calls, hasked⟩ := hasked
  have hnone : Asking.contiguousPtr (trapping (trap a block h)) a.report a.address a.size a.access
      fuel (Asking.start h) = none := by
    cases fuel with
    | zero => rfl
    | succ fuel =>
      have hguard : ¬ (a.size = 0 || (Asking.start h).context.hasException) = true := by
        rw [decide_eq_false a.size_pos.ne', show (Asking.start h).context = h.context from rfl, hexc]
        exact Bool.false_ne_true
      unfold Asking.contiguousPtr Asking.tryHandle
      rw [if_neg hguard, hwalk]
      dsimp only
      rw [hasked]
      exact contiguousPtr_trap htwo fuel _
        ⟨(trap a block h).cpu.memory.pageCache, rfl, pageCacheOk_trap a block h⟩
  unfold HookedAccess.pointers
  rw [if_pos (Bool.eq_true_of_not_eq_false hplain), hnone]
  rfl

/-- Callbacks that claim to have handled everything, and do nothing. -/
def claiming : InvalidCallbacks ω := fun _ _ _ _ h => (true, h)

/-- **A seam** that a callback is asked about is enough for callbacks that do nothing. -/
theorem contiguousPtr_claiming (hm : ManagerOk h.cpu.memory)
    (hexc : h.context.hasException = false) {p q : HostPtr} {j : ℕ} (hlt : j < a.size)
    (hpos : 0 < j) (hrun : ∀ i < j, h.cpu.Behind a.access a.address p i)
    (hview : h.cpu.byteView a.access (a.address + BitVec.ofNat 64 j) = .ok q)
    (hne : q ≠ p.add (BitVec.ofNat 64 j))
    (hasks : h.table.Asks (cpuGetInvalidMemoryHookType a.access true) a.address) (fuel : ℕ) :
    ∀ s : Asking ω, s.Near h →
      Asking.contiguousPtr claiming a.report a.address a.size a.access fuel s = none := by
  have hj : Obstacle a h p j := ⟨hlt, hrun, Or.inl ⟨q, hview, hpos, hne, hasks⟩⟩
  have hapart : Apart a h claiming p j fun s => s.Near h := by
    intro s hs
    have hbyte := @resolve_near ω h s claiming a.report hm hexc hs
      (a.address + BitVec.ofNat 64 j) a.access
    rw [hview] at hbyte
    obtain ⟨s', hs', hresolve⟩ := hbyte
    exact ⟨q, s', hresolve, hne, hs'⟩
  induction fuel with
  | zero => exact fun _ _ => rfl
  | succ fuel ih =>
    intro s hs
    obtain ⟨current, s₁, hwalk, hs₁⟩ := walk_apart hm hexc hj hpos hapart hs
    have hguard : ¬ (a.size = 0 || s.context.hasException) = true := by
      rw [hs.context_eq, decide_eq_false a.size_pos.ne', hexc]
      exact Bool.false_ne_true
    obtain ⟨s₂, hasked, hsame⟩ := @notify_answered ω a.report claiming (· = s₁.hosted) _ s₁
      (by rw [hs₁.table_eq]; exact hasks) (fun _ _ => ⟨rfl, rfl⟩) fun _ _ _ heq => heq
    unfold Asking.contiguousPtr Asking.tryHandle
    rw [if_neg hguard, hwalk]
    dsimp only
    rw [hasked]
    apply ih s₂
    unfold Asking.Near
    rw [hsame]
    exact hs₁

end Hang

/-! ## The law -/

/-- **An access** ends behind a bounded number of callbacks, whatever they do, if and only if it is
safe. -/
theorem access_settles_iff (a : HookedAccess) {h : Hosted ω} (hm : MemoryOk h.cpu.memory) :
    (∀ callbacks : InvalidCallbacks ω, a.Settles callbacks h) ↔ a.Safe h := by
  constructor
  · intro hall
    by_contra hsafe
    obtain ⟨callbacks, hnone⟩ := hangs_of_not_safe hm.manager hm.cache hsafe
    obtain ⟨fuel, r, hsome, -⟩ := hall callbacks
    rw [hnone fuel] at hsome
    cases hsome
  · exact fun hsafe callbacks => settles_of_safe hm.manager hm.cache hsafe

/-- Two pages of the guest that lie apart in the host. -/
def apartMemory : MemoryManager :=
  memoryCall
    (memoryCall (mmInit (.initial (fun _ => 0) fun _ => true))
      (.layout (.mapPtr 0x1000 0x1000 (mmProtRead ||| mmProtWrite) 0x100000)))
    (.layout (.mapPtr 0x2000 0x1000 (mmProtRead ||| mmProtWrite) 0x300000))

theorem apartMemory_ok : MemoryOk apartMemory :=
  (memoryCall_ok (memoryCall_ok (memoryOk_mmInit _) _).1 _).1

/-- An engine over these pages with a hook for writes that are not allowed. -/
def apartEngine : Hosted Unit where
  table := trapTable .memWriteProt
  shared :=
    { engine :=
        { cpu :=
            { context := initCpuContext false
              memory := apartMemory
              hooks := Hooks.none
              asked := 0 }
          instCache := none
          escapes := [] }
      stopRequested := false
      world := () }

/-- The access of `get_memory_write_ptr` for a locked instruction. -/
def lockedAccess (size : OperandWidth) (operand : RmOperand) : HookedAccess where
  address := operand.memAddress
  size := size.bits / 8
  access := .write
  value := 0
  onePointer := true
  size_pos := by cases size <;> decide
  size_lt := by cases size <;> decide

/-- The operand of `OR [RDI], EAX` with four bytes on both pages. -/
def apartOperand : RmOperand := ⟨0x07, 0x1FFE⟩

/-- The access of `LOCK OR [RDI], EAX` to them. -/
def apartAccess : HookedAccess := lockedAccess .dword apartOperand

/-- The CPU of this engine, with callbacks that claim to have handled everything. -/
def claimingCpu : Cpu :=
  { apartEngine.cpu with
    hooks := { installed := apartEngine.table.installed, answers := fun _ => true } }

/-- A locked access to one of these pages ends. -/
theorem access_settles_iff_example :
    4 ≤ cpuPageBytesRemaining 0x1FFC ∧ ∀ callbacks : InvalidCallbacks Unit,
      HookedAccess.Settles { apartAccess with address := 0x1FFC } callbacks apartEngine := by
  have hpage : apartEngine.cpu.memory.patches.length = 0 ∧
      4 ≤ cpuPageBytesRemaining 0x1FFC := ⟨rfl, by decide⟩
  exact ⟨hpage.2, (@access_settles_iff Unit _ apartEngine apartMemory_ok).mpr
    (Or.inr (Or.inr (Or.inr (Or.inl hpage))))⟩

/-- The bytes of the operand may be read. -/
theorem operandPtrs_claimingCpu : claimingCpu.operandPtrs false 0x1FFE 4 0 =
    .ok [.user 0x100FFE, .user 0x100FFF, .user 0x300000, .user 0x300001] := rfl

/-- They do not lie behind one another. -/
theorem claimingCpu_apart : ¬ claimingCpu.OneRun true 0x1FFE 4 := by
  have hrun : claimingCpu.InRun true 0x1FFE (.user 0x100FFE) 2 := by
    intro i hi
    obtain rfl | rfl : i = 0 ∨ i = 1 := by omega
    · rfl
    · rfl
  exact not_oneRun (by decide) (by decide) hrun (q := .user 0x300000) rfl (by decide)

/-- `LOCK OR [RDI], EAX` on pages that lie apart never ends while the callbacks claim to have
handled its access: neither the access nor the instruction. -/
theorem locked_access_hangs :
    (¬ ∀ (a : HookedAccess) (h : Hosted Unit) (callbacks : InvalidCallbacks Unit),
      MemoryOk h.cpu.memory → a.Settles callbacks h) ∧
    (¬ apartAccess.Settles claiming apartEngine) ∧
    ∀ fuel, (((InPlaceOp.or none).execute fuel .dword apartOperand true).run cpuOp
      claimingCpu).1 = none := by
  have hrun : ∀ i < 2, apartEngine.cpu.Behind apartAccess.access apartAccess.address
      (.user 0x100FFE) i := by
    intro i hi
    obtain rfl | rfl : i = 0 ∨ i = 1 := by omega
    · rfl
    · rfl
  have hnever := contiguousPtr_claiming (a := apartAccess) (h := apartEngine) apartMemory_ok.manager
    rfl (j := 2) (by decide) (by decide) hrun (q := .user 0x300000) rfl (by decide)
    (asks_trap apartAccess 0 apartEngine _ _ rfl)
  have hhangs : ¬ apartAccess.Settles claiming apartEngine := by
    rintro ⟨fuel, r, hsome, -⟩
    unfold HookedAccess.pointers at hsome
    rw [if_pos (show apartAccess.onePointer = true from rfl),
      hnever fuel _ (near_start apartMemory_ok.cache)] at hsome
    cases hsome
  refine ⟨fun hall => hhangs (hall apartAccess apartEngine claiming apartMemory_ok), hhangs, ?_⟩
  exact locked_endless apartMemory_ok rfl (.or none) .dword rfl operandPtrs_claimingCpu
    claimingCpu_apart ⟨rfl, fun _ => rfl⟩

end Cpueaxh
