/-
# The cost of hooks for invalid accesses

Every byte is given up behind four attempts, so that each pass over the bytes of an access asks
a bounded number of callbacks, whatever they do.  A byte without a pointer leaves an exception
behind, which is a page fault where neither the address nor the callbacks raise another one.
-/
import Cpueaxh.InvalidHooks

namespace Cpueaxh

open HostMemory

variable {ω : Type}

/-! ## The cost of an access -/

/-- The callbacks that it takes to get from a state to another one, and a property that is kept on
the way. -/
structure Costs (inv : Asking ω → Prop) (k : ℕ) (s s' : Asking ω) : Prop where
  calls : s'.calls ≤ s.calls + k
  keeps : inv s → inv s'

theorem Costs.refl (inv : Asking ω → Prop) (k : ℕ) (s : Asking ω) : Costs inv k s s :=
  ⟨Nat.le_add_right _ _, id⟩

theorem Costs.trans {inv : Asking ω → Prop} {k l : ℕ} {s s' s'' : Asking ω}
    (h : Costs inv k s s') (h' : Costs inv l s' s'') : Costs inv (k + l) s s'' := by
  refine ⟨?_, fun hs => h'.keeps (h.keeps hs)⟩
  have hfirst := h.calls
  have hsecond := h'.calls
  omega

theorem Costs.mono {inv : Asking ω → Prop} {k l : ℕ} {s s' : Asking ω} (h : Costs inv k s s')
    (hkl : k ≤ l) : Costs inv l s s' :=
  ⟨h.calls.trans (Nat.add_le_add_left hkl _), h.keeps⟩

/-- What keeps a property: the attempts, the callbacks, and the faults at some addresses. -/
structure KeptBy (callbacks : InvalidCallbacks ω) (ok : U64 → Prop) (inv : Asking ω → Prop) :
    Prop where
  attempt : ∀ (s : Asking ω) (address : U64) (access : Access),
    inv s → inv (s.attempt address access).2
  notify : ∀ (type : HookType) (report : InvalidReport) (s : Asking ω),
    inv s → inv (cpuNotifyInvalidMemoryHook callbacks type report s).2
  raise : ∀ (s : Asking ω) (address : U64) (access : Access) (violation : Bool),
    inv s → inv (s.raisePageFault address access violation)
  linear : ∀ (s : Asking ω) (address : U64), ok address → inv s →
    (cpuValidateLinearAddress s.context address .ds).1 = false →
    inv (s.setContext (cpuValidateLinearAddress s.context address .ds).2)

section Costs

variable {callbacks : InvalidCallbacks ω} {ok : U64 → Prop} {inv : Asking ω → Prop}

theorem notifySlot_calls (callbacks : InvalidCallbacks ω) (type : HookType)
    (report : InvalidReport) (p : Bool × Asking ω) (index : HookSlot) :
    (notifySlot callbacks type report p index).2.calls ≤ p.2.calls + 1 := by
  unfold notifySlot
  split
  · exact Nat.le_succ _
  · exact le_rfl

/-- Each slot is asked once at most. -/
theorem notify_costs (hkept : KeptBy callbacks ok inv) (type : HookType) (report : InvalidReport)
    (s : Asking ω) :
    Costs inv 64 s (cpuNotifyInvalidMemoryHook callbacks type report s).2 := by
  refine ⟨?_, hkept.notify type report s⟩
  have hslots : ∀ (slots : List HookSlot) (p : Bool × Asking ω),
      (slots.foldl (notifySlot callbacks type report) p).2.calls ≤ p.2.calls + slots.length := by
    intro slots
    induction slots with
    | nil => exact fun p => le_rfl
    | cons index slots ih =>
      intro p
      have hfirst := notifySlot_calls callbacks type report p index
      have hrest := ih (notifySlot callbacks type report p index)
      rw [List.foldl_cons, List.length_cons]
      omega
  unfold cpuNotifyInvalidMemoryHook
  split_ifs
  · have hall := hslots (List.finRange cpueaxhMaxHooks) (false, s)
    rwa [List.length_finRange] at hall
  · exact Nat.le_add_right _ _

theorem attempt_costs (hkept : KeptBy callbacks ok inv) (s : Asking ω) (address : U64)
    (access : Access) : Costs inv 0 s (s.attempt address access).2 :=
  ⟨le_rfl, hkept.attempt s address access⟩

theorem raise_costs (hkept : KeptBy callbacks ok inv) (s : Asking ω) (address : U64)
    (access : Access) (violation : Bool) :
    Costs inv 0 s (s.raisePageFault address access violation) :=
  ⟨le_rfl, hkept.raise s address access violation⟩

variable (report : InvalidReport)

/-- A byte is tried four times. -/
theorem resolveLoop_costs (hkept : KeptBy callbacks ok inv) (address : U64) (access : Access)
    (left : ℕ) : ∀ s : Asking ω,
    Costs inv (64 * left) s (Asking.resolveLoop callbacks report address access left s).2 := by
  induction left with
  | zero => exact fun s => raise_costs hkept s address access true
  | succ left ih =>
    intro s
    unfold Asking.resolveLoop
    have htried := attempt_costs hkept s address access
    generalize s.attempt address access = tried at htried ⊢
    rcases tried with ⟨violation | ptr, s₁⟩
    · have hasked := notify_costs hkept (cpuGetInvalidMemoryHookType access violation) report s₁
      unfold Asking.tryHandle
      dsimp only at htried ⊢
      generalize cpuNotifyInvalidMemoryHook callbacks (cpuGetInvalidMemoryHookType access violation)
        report s₁ = asked at hasked ⊢
      rcases asked with ⟨handled | handled, s₂⟩
      · have hraised := raise_costs hkept s₂ address access violation
        exact ((htried.trans hasked).trans hraised).mono (by omega)
      · exact ((htried.trans hasked).trans (ih s₂)).mono (by omega)
    · exact htried.mono (Nat.zero_le _)

/-- **A byte** costs a bounded number of callbacks. -/
theorem resolve_costs (hkept : KeptBy callbacks ok inv) {address : U64} (hok : ok address)
    (access : Access) (s : Asking ω) :
    Costs inv 256 s (s.resolve callbacks report address access).2 := by
  have hlinear := hkept.linear s address hok
  unfold Asking.resolve
  by_cases hpending : s.context.hasException = true
  · rw [if_pos hpending]
    exact .refl inv 256 s
  rw [if_neg hpending]
  generalize cpuValidateLinearAddress s.context address .ds = linear at hlinear ⊢
  rcases linear with ⟨valid | valid, ctx⟩
  · exact ⟨Nat.le_add_right _ _, fun hs => hlinear hs rfl⟩
  dsimp only
  split_ifs with hhooks
  · exact resolveLoop_costs (report.forByte address) hkept address access 4 s
  · have htried := attempt_costs hkept s address access
    generalize s.attempt address access = tried at htried ⊢
    rcases tried with ⟨violation | ptr, s₁⟩
    · exact (htried.trans (raise_costs hkept s₁ address access violation)).mono (by omega)
    · exact htried.mono (by omega)

/-- The walk over the bytes. -/
theorem walkBytes_costs (hkept : KeptBy callbacks ok inv) {address : U64} {size : ℕ}
    (hok : ∀ i < size, ok (address + BitVec.ofNat 64 i)) (access : Access) (base : HostPtr)
    (left : ℕ) : ∀ (offset : ℕ) (s : Asking ω), offset + left ≤ size →
    Costs inv (256 * left) s
      (Asking.walkBytes callbacks report address access base left offset s).2 := by
  induction left with
  | zero => exact fun _ s _ => .refl inv 0 s
  | succ left ih =>
    intro offset s hsize
    unfold Asking.walkBytes
    have hbyte := resolve_costs report hkept (hok offset (by omega)) access s
    generalize s.resolve callbacks report (address + BitVec.ofNat 64 offset) access = r at hbyte ⊢
    rcases r with ⟨_ | next, s₁⟩
    · exact hbyte.mono (by omega)
    · dsimp only at hbyte ⊢
      split_ifs
      · exact (hbyte.trans (ih (offset + 1) s₁ (by omega))).mono (by omega)
      · exact hbyte.mono (by omega)

/-- The walk over the pages. -/
theorem walkPages_costs (hkept : KeptBy callbacks ok inv) {address : U64} {size : ℕ}
    (hok : ∀ i < size, ok (address + BitVec.ofNat 64 i)) (access : Access) (fuel : ℕ) :
    ∀ (offset : ℕ) (base : Option HostPtr) (s : Asking ω),
    Costs inv (256 * fuel) s
      (Asking.walkPages callbacks report address size access fuel offset base s).2 := by
  induction fuel with
  | zero => exact fun _ _ s => .refl inv 0 s
  | succ fuel ih =>
    intro offset base s
    unfold Asking.walkPages
    split_ifs with hlt
    · have hpage := resolve_costs report hkept (hok offset hlt) access s
      dsimp only
      generalize s.resolve callbacks report (address + BitVec.ofNat 64 offset) access = r at hpage ⊢
      rcases r with ⟨_ | page, s₁⟩
      · exact hpage.mono (by omega)
      · dsimp only at hpage ⊢
        cases base with
        | none => exact (hpage.trans (ih _ (some page) s₁)).mono (by omega)
        | some base =>
          dsimp only
          by_cases hnext : page = base.add (BitVec.ofNat 64 offset)
          · rw [if_pos hnext]
            exact (hpage.trans (ih _ (some base) s₁)).mono (by omega)
          · rw [if_neg hnext]
            exact hpage.mono (by omega)
    · exact .refl inv _ s

/-- **A pass** costs a bounded number of callbacks. -/
theorem walk_costs (hkept : KeptBy callbacks ok inv) {address : U64} {size : ℕ} (hsize : 0 < size)
    (hok : ∀ i < size, ok (address + BitVec.ofNat 64 i)) (access : Access) (s : Asking ω) :
    Costs inv (256 * size) s (s.walk callbacks report address size access).2 := by
  have hfirst : ok address := by
    have hzero := hok 0 hsize
    rwa [show address + BitVec.ofNat 64 0 = address from BitVec.add_zero address] at hzero
  have hbyte := resolve_costs report hkept hfirst access s
  unfold Asking.walk
  split_ifs
  · exact hbyte.mono (by omega)
  · exact walkPages_costs report hkept hok access size 0 none s
  · generalize s.resolve callbacks report address access = r at hbyte ⊢
    rcases r with ⟨_ | base, s₁⟩
    · exact hbyte.mono (by omega)
    · have hrest := walkBytes_costs report hkept hok access base (size - 1) 1 s₁ (by omega)
      exact (hbyte.trans hrest).mono (by omega)

/-- The bytes of an access, each on its own. -/
theorem resolveBytes_costs (hkept : KeptBy callbacks ok inv) {address : U64} {size : ℕ}
    (hok : ∀ i < size, ok (address + BitVec.ofNat 64 i)) (access : Access) (left : ℕ) :
    ∀ (offset : ℕ) (s : Asking ω), offset + left ≤ size →
    Costs inv (256 * left) s
      (Asking.resolveBytes callbacks report address access left offset s).2 := by
  induction left with
  | zero => exact fun _ s _ => .refl inv 0 s
  | succ left ih =>
    intro offset s hsize
    unfold Asking.resolveBytes
    have hbyte := resolve_costs report hkept (hok offset (by omega)) access s
    generalize s.resolve callbacks report (address + BitVec.ofNat 64 offset) access = r at hbyte ⊢
    rcases r with ⟨_ | p, s₁⟩
    · exact hbyte.mono (by omega)
    · have hrest := ih (offset + 1) s₁ (by omega)
      dsimp only at hbyte ⊢
      generalize Asking.resolveBytes callbacks report address access left (offset + 1) s₁ = r at hrest ⊢
      rcases r with ⟨_ | rest, s₂⟩
      · exact (hbyte.trans hrest).mono (by omega)
      · exact (hbyte.trans hrest).mono (by omega)

/-- **A load or a store** costs a bounded number of callbacks. -/
theorem bytePtrs_costs (hkept : KeptBy callbacks ok inv) {address : U64} {size : ℕ}
    (hsize : 0 < size) (hok : ∀ i < size, ok (address + BitVec.ofNat 64 i)) (access : Access)
    (s : Asking ω) :
    Costs inv (512 * size) s (s.bytePtrs callbacks report address size access).2 := by
  unfold Asking.bytePtrs
  split_ifs with hone
  · exact (resolveBytes_costs report hkept hok access 1 0 s (by omega)).mono (by omega)
  have hwhole : Costs inv (256 * size) s
      (s.tryContiguousPtr callbacks report address size access).2 := by
    unfold Asking.tryContiguousPtr
    have hwalk := walk_costs report hkept hsize hok access s
    split_ifs
    · exact .refl inv _ s
    · generalize s.walk callbacks report address size access = r at hwalk ⊢
      rcases r with ⟨_ | _ | _, s₁⟩ <;> exact hwalk
  generalize s.tryContiguousPtr callbacks report address size access = r at hwhole ⊢
  rcases r with ⟨_ | p, s₁⟩
  · have hbytes := resolveBytes_costs report hkept hok access size 0 s₁ (by omega)
    exact (hwhole.trans hbytes).mono (by omega)
  · exact hwhole.mono (by omega)

end Costs

/-! ## Faults -/

section Faults

variable (callbacks : InvalidCallbacks ω) (report : InvalidReport)

/-- Behind a fault there is an exception, its own or one before it. -/
theorem raise_pending (ctx : CpuContext) {code : U32} (hcode : code ≠ cpuExceptionNone)
    (errorCode : U32) : (ctx.raiseException code errorCode).hasException = true := by
  unfold CpuContext.raiseException
  by_cases hpending : ctx.hasException = true
  · rw [if_pos hpending, hpending]
  · rw [if_neg hpending]
    exact bne_iff_ne.mpr hcode

theorem raisePageFault_pending (s : Asking ω) (address : U64) (access : Access)
    (violation : Bool) : (s.raisePageFault address access violation).context.hasException = true :=
  raise_pending _ (by decide) _

theorem resolveLoop_none (address : U64) (access : Access) (left : ℕ) : ∀ s : Asking ω,
    (Asking.resolveLoop callbacks report address access left s).1 = none →
    (Asking.resolveLoop callbacks report address access left s).2.context.hasException = true := by
  induction left with
  | zero => exact fun s _ => raisePageFault_pending s address access true
  | succ left ih =>
    intro s
    unfold Asking.resolveLoop
    rcases s.attempt address access with ⟨violation | ptr, s₁⟩
    · dsimp only
      rcases s₁.tryHandle callbacks report access violation with ⟨handled | handled, s₂⟩
      · exact fun _ => raisePageFault_pending s₂ address access violation
      · exact ih s₂
    · rintro ⟨⟩

/-- **A byte without a pointer** leaves an exception behind. -/
theorem resolve_none (address : U64) (access : Access) (s : Asking ω)
    (hnone : (s.resolve callbacks report address access).1 = none) :
    (s.resolve callbacks report address access).2.context.hasException = true := by
  revert hnone
  unfold Asking.resolve
  by_cases hpending : s.context.hasException = true
  · rw [if_pos hpending]
    exact fun _ => hpending
  rw [if_neg hpending]
  unfold cpuValidateLinearAddress cpuRaiseNoncanonicalAddress
  by_cases hcanon : (s.context.is64BitCode && !cpuIsCanonicalAddress address) = true
  · rw [if_pos hcanon, if_neg (by decide)]
    exact fun _ => raise_pending _ (by decide) _
  · rw [if_neg hcanon]
    dsimp only
    split_ifs
    · exact resolveLoop_none callbacks (report.forByte address) address access 4 s
    · rcases s.attempt address access with ⟨violation | ptr, s₁⟩
      · exact fun _ => raisePageFault_pending s₁ address access violation
      · rintro ⟨⟩

theorem walkBytes_refused (address : U64) (access : Access) (base : HostPtr) (left : ℕ) :
    ∀ (offset : ℕ) (s : Asking ω),
    (Asking.walkBytes callbacks report address access base left offset s).1 = .refused →
    (Asking.walkBytes callbacks report address access base left offset s).2.context.hasException =
      true := by
  induction left with
  | zero =>
    rintro offset s ⟨⟩
  | succ left ih =>
    intro offset s
    unfold Asking.walkBytes
    have hbyte := resolve_none callbacks report (address + BitVec.ofNat 64 offset) access s
    generalize s.resolve callbacks report (address + BitVec.ofNat 64 offset) access = r at hbyte ⊢
    rcases r with ⟨_ | next, s₁⟩
    · exact fun _ => hbyte rfl
    · dsimp only
      split_ifs
      · exact ih (offset + 1) s₁
      · rintro ⟨⟩

theorem walkPages_refused (address : U64) (size : ℕ) (access : Access) (fuel : ℕ) :
    ∀ (offset : ℕ) (base : Option HostPtr) (s : Asking ω),
    base ≠ none ∨ 0 < fuel ∧ offset < size →
    (Asking.walkPages callbacks report address size access fuel offset base s).1 = .refused →
    (Asking.walkPages callbacks report address size access fuel offset base
      s).2.context.hasException = true := by
  induction fuel with
  | zero =>
    rintro offset (_ | base) s (hbase | hfuel)
    · exact absurd rfl hbase
    · exact absurd hfuel.1 (lt_irrefl 0)
    · rintro ⟨⟩
    · rintro ⟨⟩
  | succ fuel ih =>
    intro offset base s hstart
    unfold Asking.walkPages
    by_cases hlt : offset < size
    · rw [if_pos hlt]
      have hpage := resolve_none callbacks report (address + BitVec.ofNat 64 offset) access s
      dsimp only
      generalize s.resolve callbacks report (address + BitVec.ofNat 64 offset) access = r at hpage ⊢
      rcases r with ⟨_ | page, s₁⟩
      · exact fun _ => hpage rfl
      · cases base with
        | none => exact ih _ (some page) s₁ (Or.inl (Option.some_ne_none page))
        | some base =>
          dsimp only
          by_cases hnext : page = base.add (BitVec.ofNat 64 offset)
          · rw [if_pos hnext]
            exact ih _ (some base) s₁ (Or.inl (Option.some_ne_none base))
          · rw [if_neg hnext]
            rintro ⟨⟩
    · rw [if_neg hlt]
      rcases hstart with hbase | hfuel
      · obtain ⟨p, rfl⟩ := Option.ne_none_iff_exists'.mp hbase
        rintro ⟨⟩
      · exact absurd hfuel.2 hlt

/-- A pass that is refused leaves an exception behind. -/
theorem walk_refused {address : U64} {size : ℕ} (hsize : 0 < size) (access : Access)
    (s : Asking ω) (hrefused : (s.walk callbacks report address size access).1 = .refused) :
    (s.walk callbacks report address size access).2.context.hasException = true := by
  have hbyte := resolve_none callbacks report address access s
  revert hrefused
  unfold Asking.walk
  split_ifs
  · generalize s.resolve callbacks report address access = r at hbyte ⊢
    rcases r with ⟨_ | p, s₁⟩
    · exact fun _ => hbyte rfl
    · rintro ⟨⟩
  · exact walkPages_refused callbacks report address size access size 0 none s
      (Or.inr ⟨hsize, hsize⟩)
  · generalize s.resolve callbacks report address access = r at hbyte ⊢
    rcases r with ⟨_ | base, s₁⟩
    · exact fun _ => hbyte rfl
    · exact walkBytes_refused callbacks report address access base (size - 1) 1 s₁

/-- The bytes of an access have a pointer each, or there is an exception. -/
theorem resolveBytes_result (address : U64) (access : Access) (left : ℕ) :
    ∀ (offset : ℕ) (s : Asking ω),
    match Asking.resolveBytes callbacks report address access left offset s with
    | (some ptrs, _) => ptrs.length = left
    | (none, s') => s'.context.hasException = true := by
  induction left with
  | zero => exact fun _ _ => rfl
  | succ left ih =>
    intro offset s
    unfold Asking.resolveBytes
    have hbyte := resolve_none callbacks report (address + BitVec.ofNat 64 offset) access s
    generalize s.resolve callbacks report (address + BitVec.ofNat 64 offset) access = r at hbyte ⊢
    rcases r with ⟨_ | p, s₁⟩
    · exact hbyte rfl
    · have hrest := ih (offset + 1) s₁
      dsimp only at hrest ⊢
      generalize Asking.resolveBytes callbacks report address access left (offset + 1) s₁ = r at hrest ⊢
      rcases r with ⟨_ | rest, s₂⟩
      · exact hrest
      · exact congrArg Nat.succ hrest

theorem consecutive_length (p : HostPtr) (n : ℕ) (offset : U64) :
    (consecutive p n offset).length = n := by
  induction n generalizing offset with
  | zero => rfl
  | succ n ih => exact congrArg Nat.succ (ih (offset + 1))

/-- The bytes of a load or of a store have a pointer each, or there is an exception. -/
theorem bytePtrs_result (address : U64) (size : ℕ) (access : Access) (s : Asking ω) :
    match s.bytePtrs callbacks report address size access with
    | (some ptrs, _) => ptrs.length = size
    | (none, s') => s'.context.hasException = true := by
  unfold Asking.bytePtrs
  by_cases hone : size = 1
  · rw [if_pos hone, hone]
    exact resolveBytes_result callbacks report address access 1 0 s
  rw [if_neg hone]
  rcases s.tryContiguousPtr callbacks report address size access with ⟨_ | p, s₁⟩
  · exact resolveBytes_result callbacks report address access size 0 s₁
  · exact consecutive_length p size 0

end Faults

/-! ## Accesses that end -/

/-- The callbacks leave the context alone. -/
def KeepsContext (callbacks : InvalidCallbacks ω) : Prop :=
  ∀ callback userData type report h, (callbacks callback userData type report h).2.context =
    h.context

namespace HookedAccess

variable (a : HookedAccess)

/-- The bytes have linear addresses. -/
def Canonical (ctx : CpuContext) : Prop :=
  ctx.is64BitCode = true → ∀ i < a.size,
    cpuIsCanonicalAddress (a.address + BitVec.ofNat 64 i) = true

/-- The end of an access: a pointer for each byte, or a fault.  It is a page fault where neither
the address nor the callbacks give rise to another one. -/
inductive Ended (callbacks : InvalidCallbacks ω) (h : Hosted ω) :
    Option (List HostPtr) × Asking ω → Prop where
  | pointers {ptrs : List HostPtr} {s : Asking ω} (hlength : ptrs.length = a.size) :
    Ended callbacks h (some ptrs, s)
  | fault {s : Asking ω} (hpending : s.context.hasException = true)
    (hpage : h.context.hasException = false → KeepsContext callbacks → a.Canonical h.context →
      s.context.exception.code = cpuExceptionPf) : Ended callbacks h (none, s)

/-- An access ends behind a bounded number of callbacks. -/
def Settles (callbacks : InvalidCallbacks ω) (h : Hosted ω) : Prop :=
  ∃ fuel r, a.pointers callbacks fuel (Asking.start h) = some r ∧
    r.2.calls ≤ 512 * a.size ∧ a.Ended callbacks h r

/-- There is no other fault than page faults, where nothing else gives rise to one. -/
def OnlyPageFaults (callbacks : InvalidCallbacks ω) (h : Hosted ω) (s : Asking ω) : Prop :=
  h.context.hasException = false ∧ KeepsContext callbacks ∧ a.Canonical h.context →
    s.context.is64BitCode = h.context.is64BitCode ∧
      (s.context.hasException = true → s.context.exception.code = cpuExceptionPf)

/-- A byte of the access. -/
def Byte (address : U64) : Prop := ∃ i < a.size, address = a.address + BitVec.ofNat 64 i

end HookedAccess

section Ended

variable {a : HookedAccess} {callbacks : InvalidCallbacks ω} {h : Hosted ω}

theorem attempt_context (s : Asking ω) (address : U64) (access : Access) :
    (s.attempt address access).2.context = s.context := by
  show (s.cpu.attempt address access).2.context = s.cpu.context
  unfold Cpu.attempt
  rcases mmGetPtrChecked s.cpu.memory address access.perm with ⟨result, memory⟩
  rfl

theorem notify_context (hkeeps : KeepsContext callbacks) (type : HookType)
    (report : InvalidReport) (s : Asking ω) :
    (cpuNotifyInvalidMemoryHook callbacks type report s).2.context = s.context := by
  have hslot : ∀ (p : Bool × Asking ω) (index : HookSlot),
      (notifySlot callbacks type report p index).2.context = p.2.context := by
    intro p index
    unfold notifySlot
    rcases invalidCallback p.2.hosted.table type report.address index with _ | ⟨callback, userData⟩
    · rfl
    · exact hkeeps callback userData type report p.2.hosted
  have hslots : ∀ (slots : List HookSlot) (p : Bool × Asking ω),
      (slots.foldl (notifySlot callbacks type report) p).2.context = p.2.context := by
    intro slots
    induction slots with
    | nil => exact fun p => rfl
    | cons index slots ih => exact fun p => (ih _).trans (hslot p index)
  unfold cpuNotifyInvalidMemoryHook
  split_ifs
  · exact hslots _ _
  · rfl

theorem keptBy_onlyPageFaults (a : HookedAccess) (callbacks : InvalidCallbacks ω) (h : Hosted ω) :
    KeptBy callbacks a.Byte (a.OnlyPageFaults callbacks h) where
  attempt := by
    intro s address access hs
    unfold HookedAccess.OnlyPageFaults
    rwa [attempt_context]
  notify := by
    intro type report s hs hcond
    rw [notify_context hcond.2.1]
    exact hs hcond
  raise := by
    intro s address access violation hs hcond
    obtain ⟨hmode, hcode⟩ := hs hcond
    show CpuContext.is64BitCode (cpuRaisePageFault s.context address access violation) = _ ∧
      (_ → (cpuRaisePageFault s.context address access violation).exception.code = _)
    unfold cpuRaisePageFault CpuContext.raiseException
    split_ifs with hpending
    · exact ⟨hmode, fun _ => hcode hpending⟩
    · exact ⟨hmode, fun _ => rfl⟩
  linear := by
    rintro s address ⟨i, hi, rfl⟩ hs hfalse hcond
    exfalso
    obtain ⟨hmode, -⟩ := hs hcond
    unfold cpuValidateLinearAddress at hfalse
    split_ifs at hfalse with hcanon
    rw [Bool.and_eq_true, hmode] at hcanon
    rw [hcond.2.2 hcanon.1 i hi] at hcanon
    exact Bool.false_ne_true hcanon.2

theorem byte_of_lt {i : ℕ} (hi : i < a.size) : a.Byte (a.address + BitVec.ofNat 64 i) :=
  ⟨i, hi, rfl⟩

theorem onlyPageFaults_start : a.OnlyPageFaults callbacks h (Asking.start h) := by
  intro hcond
  refine ⟨rfl, fun hpending => ?_⟩
  rw [show (Asking.start h).context = h.context from rfl, hcond.1] at hpending
  cases hpending

/-- A fault behind a bounded number of callbacks. -/
theorem ended_fault {s : Asking ω} (hpending : s.context.hasException = true)
    (honly : a.OnlyPageFaults callbacks h s) : a.Ended callbacks h (none, s) :=
  .fault hpending fun hclear hkeeps hcanon => (honly ⟨hclear, hkeeps, hcanon⟩).2 hpending

/-- **A load or a store** ends. -/
theorem settles_plain (hplain : a.onePointer = false) : a.Settles callbacks h := by
  have hcosts := bytePtrs_costs a.report (keptBy_onlyPageFaults a callbacks h) a.size_pos
    (fun _ hi => byte_of_lt hi) a.access (Asking.start h)
  have hresult := bytePtrs_result callbacks a.report a.address a.size a.access
    (Asking.start h)
  refine ⟨0, (Asking.start h).bytePtrs callbacks a.report a.address a.size a.access, ?_, ?_, ?_⟩
  · unfold HookedAccess.pointers
    rw [if_neg (by rw [hplain]; decide)]
  · have hcalls := hcosts.calls
    rwa [Asking.start_calls, Nat.zero_add] at hcalls
  · have honly := hcosts.keeps onlyPageFaults_start
    generalize (Asking.start h).bytePtrs callbacks a.report a.address a.size a.access = r at hresult honly ⊢
    rcases r with ⟨_ | ptrs, s⟩
    · exact ended_fault hresult honly
    · exact .pointers hresult

/-- A pass whose seams, if it comes to one, no callback is asked about, is the last one. -/
theorem settles_pass (hsplit : h.context.hasException = false → ∀ current s,
    (Asking.start h).walk callbacks a.report a.address a.size a.access =
        (.split current, s) →
      s.tryHandle callbacks a.report a.access true = (false, s)) : a.Settles callbacks h := by
  by_cases hone : a.onePointer = true
  swap
  · exact settles_plain (Bool.eq_false_iff.mpr hone)
  have hkept := keptBy_onlyPageFaults a callbacks h
  have hcosts := walk_costs a.report hkept a.size_pos (fun _ hi => byte_of_lt hi) a.access
    (Asking.start h)
  have hrefused := @walk_refused ω callbacks a.report a.address a.size a.size_pos a.access
    (Asking.start h)
  have hcalls := hcosts.calls
  rw [Asking.start_calls, Nat.zero_add] at hcalls
  have honly := hcosts.keeps onlyPageFaults_start
  have hpointers : ∀ r, Asking.contiguousPtr callbacks a.report a.address a.size a.access 1
      (Asking.start h) = some r →
      a.pointers callbacks 1 (Asking.start h) =
        some (r.1.map fun p => consecutive p a.size 0, r.2) := by
    intro r hr
    unfold HookedAccess.pointers
    rw [if_pos hone, hr]
    rfl
  unfold Asking.contiguousPtr at hpointers
  by_cases hpending : (a.size = 0 || (Asking.start h).context.hasException) = true
  · have hexc : h.context.hasException = true := by
      rwa [decide_eq_false a.size_pos.ne', Bool.false_or] at hpending
    rw [if_pos hpending] at hpointers
    refine ⟨1, _, hpointers _ rfl, Nat.zero_le _, ?_⟩
    exact ended_fault hexc onlyPageFaults_start
  have hclear := hsplit (by
    rw [decide_eq_false a.size_pos.ne', Bool.false_or] at hpending
    exact Bool.eq_false_iff.mpr hpending)
  rw [if_neg hpending] at hpointers
  generalize (Asking.start h).walk callbacks a.report a.address a.size a.access = r
    at hclear hrefused hcalls honly hpointers
  rcases r with ⟨p | _ | current, s⟩
  · refine ⟨1, _, hpointers _ rfl, hcalls.trans ?_, .pointers (consecutive_length p a.size 0)⟩
    omega
  · refine ⟨1, _, hpointers _ rfl, hcalls.trans ?_, ended_fault (hrefused rfl) honly⟩
    omega
  · have hraised := raise_costs hkept s current a.access true
    have hunasked := hclear current s rfl
    dsimp only at hpointers
    rw [hunasked] at hpointers
    refine ⟨1, _, hpointers _ rfl, hcalls.trans ?_, ended_fault ?_ (hraised.keeps honly)⟩
    · omega
    · exact raisePageFault_pending s current a.access true

end Ended

end Cpueaxh
