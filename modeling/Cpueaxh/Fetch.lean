/-
# Fetching an instruction

What `fetch_instruction_bytes` finds, without the page cache and without its two loops:
the bytes of the window up to the first one that may not be executed, and the fault of
that one.  On a page without patches all bytes have the same fate, so the page loop
finds what the byte loop finds.
-/
import Cpueaxh.StepFrame

namespace Cpueaxh

open HostMemory

/-! ## The bytes of the window -/

/-- The pointer to a byte that is accessed with a permission, for 64-bit or other code and
for user or supervisor code; `none` if the access is not granted. -/
def grantedPtr (is64 user : Bool) (mgr : MemoryManager) (perm : U32) (address : U64) :
    Option HostPtr :=
  if is64 && !cpuIsCanonicalAddress address then none
  else (judgeAccess user (accessView mgr address perm)).toOption

/-- The pointer to a byte of code, for 64-bit or other code and for user or supervisor
code; `none` if the byte may not be executed. -/
def codePtr (is64 user : Bool) (mgr : MemoryManager) (address : U64) : Option HostPtr :=
  if is64 && !cpuIsCanonicalAddress address then none
  else (judgeAccess user (accessView mgr address mmProtExec)).toOption

/-- At most `left` bytes of code from the `i`-th byte behind the address on. -/
def codeBytes (is64 user : Bool) (mgr : MemoryManager) (address : U64) : ℕ → ℕ → List U8
  | 0, _ => []
  | left + 1, i =>
    match codePtr is64 user mgr (address + BitVec.ofNat 64 i) with
    | none => []
    | some ptr => (mgr.host.read ptr).getD 0 :: codeBytes is64 user mgr address left (i + 1)

/-- The bytes that a fetch finds. -/
def fetchView (is64 user : Bool) (mgr : MemoryManager) (address : U64) : List U8 :=
  codeBytes is64 user mgr address maxInstFetch 0

variable {is64 user : Bool} {mgr : MemoryManager} {address : U64}

theorem codeBytes_some {left i : ℕ} {ptr : HostPtr}
    (h : codePtr is64 user mgr (address + BitVec.ofNat 64 i) = some ptr) :
    codeBytes is64 user mgr address (left + 1) i =
      (mgr.host.read ptr).getD 0 :: codeBytes is64 user mgr address left (i + 1) := by
  rw [codeBytes, h]

theorem codeBytes_none {left i : ℕ}
    (h : codePtr is64 user mgr (address + BitVec.ofNat 64 i) = none) :
    codeBytes is64 user mgr address left i = [] := by
  cases left with
  | zero => rfl
  | succ left => rw [codeBytes, h]

/-- The same pointers to the same bytes. -/
theorem codeBytes_congr {mgr' : MemoryManager}
    (hptr : ∀ a, codePtr is64 user mgr' a = codePtr is64 user mgr a)
    (hread : ∀ a ptr, codePtr is64 user mgr a = some ptr → mgr'.host.read ptr = mgr.host.read ptr)
    (left : ℕ) : ∀ i, codeBytes is64 user mgr' address left i =
      codeBytes is64 user mgr address left i := by
  induction left with
  | zero => intro i; rfl
  | succ left ih =>
    intro i
    cases h : codePtr is64 user mgr (address + BitVec.ofNat 64 i) with
    | none => rw [codeBytes_none h, codeBytes_none (by rw [hptr, h])]
    | some ptr =>
      rw [codeBytes_some h, codeBytes_some ((hptr _).trans h), hread _ ptr h, ih (i + 1)]

@[simp] theorem codeBytes_setCache (cache : ℕ → PageCacheEntry) (left i : ℕ) :
    codeBytes is64 user (mgr.setCache cache) address left i =
      codeBytes is64 user mgr address left i := by
  apply codeBytes_congr
  · intro a
    rfl
  · intro a ptr _
    rfl

/-- No more bytes are found than asked for. -/
theorem codeBytes_length_le (left : ℕ) :
    ∀ i, (codeBytes is64 user mgr address left i).length ≤ left := by
  induction left with
  | zero => intro i; exact le_refl 0
  | succ left ih =>
    intro i
    cases h : codePtr is64 user mgr (address + BitVec.ofNat 64 i) with
    | none =>
      rw [codeBytes_none h]
      exact Nat.zero_le _
    | some ptr =>
      rw [codeBytes_some h, List.length_cons]
      exact Nat.succ_le_succ (ih (i + 1))

/-- Fewer bytes are found only because the next one may not be executed. -/
theorem codePtr_stop (left : ℕ) :
    ∀ i, (codeBytes is64 user mgr address left i).length < left →
      codePtr is64 user mgr
        (address + BitVec.ofNat 64 (i + (codeBytes is64 user mgr address left i).length)) = none := by
  induction left with
  | zero => intro i h; exact absurd h (Nat.not_lt_zero _)
  | succ left ih =>
    intro i hlt
    cases h : codePtr is64 user mgr (address + BitVec.ofNat 64 i) with
    | none =>
      rw [codeBytes_none h]
      exact h
    | some ptr =>
      rw [codeBytes_some h, List.length_cons] at hlt ⊢
      rw [show i + ((codeBytes is64 user mgr address left (i + 1)).length + 1) =
        i + 1 + (codeBytes is64 user mgr address left (i + 1)).length by omega]
      exact ih (i + 1) (by omega)

/-- A fetch finds something exactly when the first byte may be executed. -/
theorem fetchView_ne_nil :
    fetchView is64 user mgr address ≠ [] ↔ ∃ ptr, codePtr is64 user mgr address = some ptr := by
  have hzero : address + BitVec.ofNat 64 0 = address := BitVec.add_zero address
  cases h : codePtr is64 user mgr address with
  | none =>
    have hnil : fetchView is64 user mgr address = [] := codeBytes_none (by rw [hzero]; exact h)
    simp [hnil]
  | some ptr =>
    have hcons := @codeBytes_some is64 user mgr address 14 0 ptr (by rw [hzero]; exact h)
    simp [fetchView, maxInstFetch, hcons]

/-! ## A page -/

/-- Addresses of one page are rounded down to the same address. -/
theorem alignDownPage_add {a : U64} {j : ℕ} (hj : j < cpuPageBytesRemaining a) :
    alignDownPage (a + BitVec.ofNat 64 j) = alignDownPage a := by
  unfold cpuPageBytesRemaining at hj
  have h1 := pageOf_toNat a
  have h2 := pageOf_toNat (a + BitVec.ofNat 64 j)
  have h3 : (a + BitVec.ofNat 64 j).toNat = a.toNat + j := by
    have := a.isLt
    rw [BitVec.toNat_add, BitVec.toNat_ofNat]
    omega
  apply BitVec.eq_of_toNat_eq
  show (pageOf _).1.toNat = (pageOf _).1.toNat
  rw [h1, h2, h3]
  omega

/-- Addresses of one page are all canonical or all not. -/
theorem cpuIsCanonicalAddress_add {a : U64} {j : ℕ} (hj : j < cpuPageBytesRemaining a) :
    cpuIsCanonicalAddress (a + BitVec.ofNat 64 j) = cpuIsCanonicalAddress a := by
  unfold cpuPageBytesRemaining at hj
  have hadd : (a + BitVec.ofNat 64 j).toNat = a.toNat + j := by
    have := a.isLt
    rw [BitVec.toNat_add, BitVec.toNat_ofNat]
    omega
  have hshift : ∀ k, 12 ≤ k → (a + BitVec.ofNat 64 j) >>> k = a >>> k := by
    intro k hk
    obtain ⟨k, rfl⟩ := Nat.exists_eq_add_of_le hk
    have hpage : (a.toNat + j) >>> 12 = a.toNat >>> 12 := by
      rw [Nat.shiftRight_eq_div_pow, Nat.shiftRight_eq_div_pow]
      omega
    apply BitVec.eq_of_toNat_eq
    rw [BitVec.toNat_ushiftRight, BitVec.toNat_ushiftRight, Nat.shiftRight_add,
      Nat.shiftRight_add, hadd, hpage]
  unfold cpuIsCanonicalAddress
  rw [hshift 48 (by decide), hshift 47 (by decide)]

/-- **A page without patches.**  The bytes of a page lie behind one another in the host,
and are all granted if one of them is. -/
theorem grantedPtr_page (hm : ManagerOk mgr) (hpatches : mgr.patches.length = 0) {perm : U32}
    {a : U64} {ptr : HostPtr} (h : grantedPtr is64 user mgr perm a = some ptr) {j : ℕ}
    (hj : j < cpuPageBytesRemaining a) :
    grantedPtr is64 user mgr perm (a + BitVec.ofNat 64 j) = some (ptr.add (BitVec.ofNat 64 j)) := by
  have hpage := alignDownPage_add hj
  have hentry : pageEntry mgr (a + BitVec.ofNat 64 j) = pageEntry mgr a := by
    rw [← pageEntry_alignDownPage hm, hpage, pageEntry_alignDownPage hm]
  unfold grantedPtr at h ⊢
  rw [cpuIsCanonicalAddress_add hj]
  split_ifs at h ⊢ with hcanon
  unfold accessView at h ⊢
  rw [hentry]
  cases hpe : pageEntry mgr a with
  | none =>
    rw [hpe] at h
    exact absurd h (by simp [checkInfo, judgeAccess, Except.toOption])
  | some entry =>
    have hptr : (entry.info (a + BitVec.ofNat 64 j)).ptr =
        (entry.info a).ptr.add (BitVec.ofNat 64 j) := by
      simp only [PageCacheEntry.info, HostPtr.add_add, hpage]
      congr 1
      bv_omega
    have hperms : (entry.info (a + BitVec.ofNat 64 j)).perms = (entry.info a).perms := rfl
    have hattrs : (entry.info (a + BitVec.ofNat 64 j)).cpuAttrs = (entry.info a).cpuAttrs := rfl
    rw [hpe] at h
    simp only [Option.map_some, checkInfo, hpatches, hperms, hattrs, hptr] at h ⊢
    by_cases hexec : (entry.info a).perms &&& perm = 0
    · rw [if_pos hexec] at h
      cases h
    · rw [if_neg hexec] at h ⊢
      simp only [bne_self_eq_false, Bool.false_and, Bool.false_eq_true, if_false,
        judgeAccess] at h ⊢
      by_cases huser : user = true ∧ (entry.info a).cpuAttrs &&& mmCpuAttrUser = 0
      · rw [if_pos huser] at h
        cases h
      · rw [if_neg huser] at h ⊢
        obtain rfl : (entry.info a).ptr = ptr := Option.some.inj h
        rfl

theorem codePtr_page (hm : ManagerOk mgr) (hpatches : mgr.patches.length = 0) {a : U64}
    {ptr : HostPtr} (h : codePtr is64 user mgr a = some ptr) {j : ℕ}
    (hj : j < cpuPageBytesRemaining a) :
    codePtr is64 user mgr (a + BitVec.ofNat 64 j) = some (ptr.add (BitVec.ofNat 64 j)) :=
  grantedPtr_page hm hpatches h hj

/-- Bytes with known pointers are read through them. -/
theorem codeBytes_append (k : ℕ) : ∀ {left i : ℕ} {ptrs : ℕ → HostPtr}, k ≤ left →
    (∀ j < k, codePtr is64 user mgr (address + BitVec.ofNat 64 (i + j)) = some (ptrs j)) →
      codeBytes is64 user mgr address left i =
        ((List.range k).map fun j => (mgr.host.read (ptrs j)).getD 0) ++
          codeBytes is64 user mgr address (left - k) (i + k) := by
  induction k with
  | zero => intro left i ptrs _ _; rfl
  | succ k ih =>
    intro left i ptrs hk h
    obtain ⟨left, rfl⟩ : ∃ n, left = n + 1 := ⟨left - 1, by omega⟩
    have hrest := @ih left (i + 1) (fun j => ptrs (j + 1)) (by omega) (by
      intro j hj
      have := h (j + 1) (by omega)
      rwa [show i + (j + 1) = i + 1 + j by omega] at this)
    have hfirst : codePtr is64 user mgr (address + BitVec.ofNat 64 i) = some (ptrs 0) :=
      h 0 k.succ_pos
    rw [codeBytes_some hfirst, hrest, List.range_succ_eq_map, List.map_cons,
      List.map_map, List.cons_append]
    rw [show left + 1 - (k + 1) = left - k by omega, show i + (k + 1) = i + 1 + k by omega]
    rfl

/-! ## The end of a fetch -/

/-- The context behind a fetch, and the number of callbacks: those of the first byte that
may not be executed, if there is one. -/
def fetchEnd (ctx : CpuContext) (mgr : MemoryManager) (hooks : Hooks) (asked : ℕ) (address : U64)
    (left i : ℕ) : CpuContext × ℕ :=
  let found := (codeBytes ctx.is64BitCode ctx.isUser mgr address left i).length
  if found = left then (ctx, asked)
  else
    (accessOutcome ctx (accessView mgr (address + BitVec.ofNat 64 (i + found)) mmProtExec) hooks
      asked (address + BitVec.ofNat 64 (i + found)) .exec).2

section End

variable {ctx : CpuContext} {hooks : Hooks} {asked : ℕ}

@[simp] theorem fetchEnd_setCache (cache : ℕ → PageCacheEntry) (left i : ℕ) :
    fetchEnd ctx (mgr.setCache cache) hooks asked address left i =
      fetchEnd ctx mgr hooks asked address left i := by
  simp only [fetchEnd, codeBytes_setCache, accessView_setCache]

/-- The outcome of an access to a byte. -/
theorem accessOutcome_granted (hexc : ctx.hasException = false) (address : U64)
    (access : Access) :
    (accessOutcome ctx (accessView mgr address access.perm) hooks asked address access).1 =
        grantedPtr ctx.is64BitCode ctx.isUser mgr access.perm address ∧
      (∀ ptr, grantedPtr ctx.is64BitCode ctx.isUser mgr access.perm address = some ptr →
        (accessOutcome ctx (accessView mgr address access.perm) hooks asked address access).2 =
          (ctx, asked)) ∧
      (grantedPtr ctx.is64BitCode ctx.isUser mgr access.perm address = none →
        (accessOutcome ctx (accessView mgr address access.perm) hooks asked address
          access).2.1.hasException = true) := by
  have hraise : ∀ c : CpuContext, c.exception = ctx.exception → ∀ code errorCode,
      code ≠ cpuExceptionNone → (c.raiseException code errorCode).hasException = true := by
    intro c hc code errorCode hne
    have hnone : c.hasException = false := by
      unfold CpuContext.hasException at hexc ⊢
      rw [hc]
      exact hexc
    unfold CpuContext.raiseException
    rw [hnone]
    simpa [CpuContext.hasException] using hne
  unfold accessOutcome grantedPtr
  simp only [hexc, Bool.false_eq_true, if_false]
  by_cases hcanon : (ctx.is64BitCode && !cpuIsCanonicalAddress address) = true
  · simp only [hcanon, if_true]
    exact ⟨trivial, fun _ h => (by cases h), fun _ => hraise ctx rfl cpuExceptionGp 0 (by decide)⟩
  · simp only [hcanon, Bool.false_eq_true, if_false]
    cases judgeAccess ctx.isUser (accessView mgr address access.perm) with
    | ok ptr => exact ⟨rfl, fun _ _ => rfl, fun h => by cases h⟩
    | error violation =>
      refine ⟨rfl, fun _ h => (by cases h), fun _ => ?_⟩
      show (cpuRaisePageFault ctx address access _).hasException = true
      unfold cpuRaisePageFault
      refine hraise _ ?_ _ _ ?_
      · rfl
      · decide

theorem accessOutcome_exec (hexc : ctx.hasException = false) (address : U64) :
    (accessOutcome ctx (accessView mgr address mmProtExec) hooks asked address .exec).1 =
        codePtr ctx.is64BitCode ctx.isUser mgr address ∧
      (∀ ptr, codePtr ctx.is64BitCode ctx.isUser mgr address = some ptr →
        (accessOutcome ctx (accessView mgr address mmProtExec) hooks asked address .exec).2 =
          (ctx, asked)) ∧
      (codePtr ctx.is64BitCode ctx.isUser mgr address = none →
        (accessOutcome ctx (accessView mgr address mmProtExec) hooks asked address
          .exec).2.1.hasException = true) :=
  accessOutcome_granted hexc address .exec

/-- One byte of a fetch. -/
theorem fetchEnd_succ (left i : ℕ) :
    fetchEnd ctx mgr hooks asked address (left + 1) i =
      match codePtr ctx.is64BitCode ctx.isUser mgr (address + BitVec.ofNat 64 i) with
      | none => (accessOutcome ctx (accessView mgr (address + BitVec.ofNat 64 i) mmProtExec) hooks
          asked (address + BitVec.ofNat 64 i) .exec).2
      | some _ => fetchEnd ctx mgr hooks asked address left (i + 1) := by
  unfold fetchEnd
  cases h : codePtr ctx.is64BitCode ctx.isUser mgr (address + BitVec.ofNat 64 i) with
  | none =>
    rw [codeBytes_none h]
    simp
  | some ptr =>
    rw [codeBytes_some h]
    simp only [List.length_cons, Nat.add_right_cancel_iff, Nat.add_assoc, Nat.add_comm 1]

/-- A part of a fetch that finds all its bytes. -/
theorem fetchEnd_append {k left i : ℕ} {ptrs : ℕ → HostPtr} (hk : k ≤ left)
    (h : ∀ j < k, codePtr ctx.is64BitCode ctx.isUser mgr (address + BitVec.ofNat 64 (i + j)) =
      some (ptrs j)) :
    fetchEnd ctx mgr hooks asked address left i =
      fetchEnd ctx mgr hooks asked address (left - k) (i + k) := by
  unfold fetchEnd
  rw [codeBytes_append k hk h]
  simp only [List.length_append, List.length_map, List.length_range]
  generalize (codeBytes ctx.is64BitCode ctx.isUser mgr address (left - k) (i + k)).length = n
  rw [show i + (k + n) = i + k + n by omega]
  by_cases hn : n = left - k
  · rw [if_pos hn, if_pos (by omega)]
  · rw [if_neg hn, if_neg (by omega)]

/-- A fetch that finds all its bytes leaves the context alone. -/
theorem fetchEnd_complete {left i : ℕ}
    (h : (codeBytes ctx.is64BitCode ctx.isUser mgr address left i).length = left) :
    fetchEnd ctx mgr hooks asked address left i = (ctx, asked) := by
  unfold fetchEnd
  rw [if_pos h]

end End

/-! ## The loops -/

namespace Cpu

/-- The CPU behind a fetch. -/
def fetched (cpu : Cpu) (cache : ℕ → PageCacheEntry) (final : CpuContext × ℕ) : Cpu where
  context := final.1
  memory := cpu.memory.setCache cache
  hooks := cpu.hooks
  asked := final.2

/-- The access to a byte of code. -/
theorem resolveMemoryAccess_exec {cpu : Cpu} (hm : MemoryOk cpu.memory)
    (hexc : cpu.context.hasException = false) (address : U64) :
    ∃ cache, MemoryOk (cpu.memory.setCache cache) ∧
      (∀ ptr, codePtr cpu.context.is64BitCode cpu.context.isUser cpu.memory address = some ptr →
        cpu.resolveMemoryAccess address .exec = (some ptr, cpu.setCache cache)) ∧
      (codePtr cpu.context.is64BitCode cpu.context.isUser cpu.memory address = none →
        cpu.resolveMemoryAccess address .exec =
          (none, cpu.fetched cache (accessOutcome cpu.context
            (accessView cpu.memory address mmProtExec) cpu.hooks cpu.asked address .exec).2)) := by
  obtain ⟨cache, hmc, heq⟩ := resolveMemoryAccess_spec hm address .exec
  have hout := @accessOutcome_exec cpu.memory cpu.context cpu.hooks cpu.asked hexc address
  refine ⟨cache, hmc, fun ptr hptr => ?_, fun hnone => ?_⟩
  · rw [heq]
    simp only [Access.perm]
    rw [hout.1, hptr, hout.2.1 ptr hptr]
    rfl
  · rw [heq]
    simp only [Access.perm]
    rw [hout.1, hnone]
    rfl

/-- The byte loop finds the bytes. -/
theorem fetchBytes_spec (address : U64) (left : ℕ) :
    ∀ (i : ℕ) {cpu : Cpu}, MemoryOk cpu.memory → cpu.context.hasException = false →
      ∃ cache, MemoryOk (cpu.memory.setCache cache) ∧
        fetchBytes address left i cpu =
          (codeBytes cpu.context.is64BitCode cpu.context.isUser cpu.memory address left i,
            cpu.fetched cache
              (fetchEnd cpu.context cpu.memory cpu.hooks cpu.asked address left i)) := by
  induction left with
  | zero =>
    intro i cpu hm _
    refine ⟨cpu.memory.pageCache, hm, ?_⟩
    rw [fetchEnd_complete rfl]
    rfl
  | succ left ih =>
    intro i cpu hm hexc
    obtain ⟨cache, hmc, hsome, hnone⟩ :=
      resolveMemoryAccess_exec hm hexc (address + BitVec.ofNat 64 i)
    rw [fetchEnd_succ]
    cases h : codePtr cpu.context.is64BitCode cpu.context.isUser cpu.memory
        (address + BitVec.ofNat 64 i) with
    | none =>
      refine ⟨cache, hmc, ?_⟩
      rw [fetchBytes, hnone h, codeBytes_none h]
    | some ptr =>
      obtain ⟨cache', hmc', hrest⟩ := @ih (i + 1) (cpu.setCache cache) hmc hexc
      refine ⟨cache', hmc', ?_⟩
      rw [fetchBytes, hsome ptr h]
      simp only [hrest]
      rw [codeBytes_some h]
      simp only [setCache, codeBytes_setCache, fetchEnd_setCache]
      rfl

/-- The page loop finds the same bytes. -/
theorem fetchPages_spec (address : U64) (fuel : ℕ) :
    ∀ (n : ℕ) {cpu : Cpu}, MemoryOk cpu.memory → cpu.context.hasException = false →
      cpu.memory.patches.length = 0 → n ≤ maxInstFetch → maxInstFetch - n ≤ fuel →
      ∃ cache, MemoryOk (cpu.memory.setCache cache) ∧
        fetchPages address fuel n cpu =
          (codeBytes cpu.context.is64BitCode cpu.context.isUser cpu.memory address
              (maxInstFetch - n) n,
            cpu.fetched cache (fetchEnd cpu.context cpu.memory cpu.hooks cpu.asked address
              (maxInstFetch - n) n)) := by
  induction fuel with
  | zero =>
    intro n cpu hm _ _ _ hfuel
    refine ⟨cpu.memory.pageCache, hm, ?_⟩
    rw [Nat.le_zero.mp hfuel, fetchEnd_complete rfl]
    rfl
  | succ fuel ih =>
    intro n cpu hm hexc hpatches hn hfuel
    by_cases hlt : n < maxInstFetch
    · obtain ⟨cache, hmc, hsome, hnone⟩ :=
        resolveMemoryAccess_exec hm hexc (address + BitVec.ofNat 64 n)
      cases h : codePtr cpu.context.is64BitCode cpu.context.isUser cpu.memory
          (address + BitVec.ofNat 64 n) with
      | none =>
        refine ⟨cache, hmc, ?_⟩
        obtain ⟨left, hleft⟩ : ∃ left, maxInstFetch - n = left + 1 :=
          ⟨maxInstFetch - n - 1, by omega⟩
        rw [fetchPages, if_pos hlt, hnone h, codeBytes_none h, hleft, fetchEnd_succ, h]
      | some ptr =>
        -- the rest of the page lies behind the first byte
        have hchunk : ∀ j < min (cpuPageBytesRemaining (address + BitVec.ofNat 64 n))
            (maxInstFetch - n), codePtr cpu.context.is64BitCode cpu.context.isUser cpu.memory
              (address + BitVec.ofNat 64 (n + j)) = some (ptr.add (BitVec.ofNat 64 j)) := by
          intro j hj
          have hpage := codePtr_page hm.manager hpatches h (lt_of_lt_of_le hj (min_le_left _ _))
          rwa [BitVec.add_assoc, ← BitVec.ofNat_add] at hpage
        have hpos : 0 < min (cpuPageBytesRemaining (address + BitVec.ofNat 64 n))
            (maxInstFetch - n) := by
          apply lt_min
          · unfold cpuPageBytesRemaining
            omega
          · omega
        generalize hc : min (cpuPageBytesRemaining (address + BitVec.ofNat 64 n))
          (maxInstFetch - n) = chunk at hchunk hpos
        have hle : chunk ≤ maxInstFetch - n := hc ▸ min_le_right _ _
        obtain ⟨cache', hmc', hrest⟩ :=
          @ih (n + chunk) (cpu.setCache cache) hmc hexc hpatches (by omega) (by omega)
        refine ⟨cache', hmc', ?_⟩
        rw [fetchPages, if_pos hlt, hsome ptr h]
        simp only [hc, hrest]
        rw [codeBytes_append chunk hle hchunk, fetchEnd_append hle hchunk, Nat.sub_add_eq]
        simp only [setCache, codeBytes_setCache, fetchEnd_setCache]
        rfl
    · refine ⟨cpu.memory.pageCache, hm, ?_⟩
      have hzero : maxInstFetch - n = 0 := by omega
      rw [fetchPages, if_neg hlt, hzero, fetchEnd_complete rfl]
      rfl

/-- **A fetch** finds the bytes up to the first one that may not be executed, and fills
the page cache at most. -/
theorem fetchInstructionBytes_spec {cpu : Cpu} (hm : MemoryOk cpu.memory)
    (hexc : cpu.context.hasException = false) (address : U64) :
    ∃ cache, MemoryOk (cpu.memory.setCache cache) ∧
      cpu.fetchInstructionBytes address =
        (fetchView cpu.context.is64BitCode cpu.context.isUser cpu.memory address,
          cpu.fetched cache (fetchEnd cpu.context cpu.memory cpu.hooks cpu.asked address
            maxInstFetch 0)) := by
  unfold fetchInstructionBytes
  rw [hexc]
  simp only [Bool.false_eq_true, if_false]
  split_ifs with hpatches
  · exact fetchPages_spec address maxInstFetch 0 hm hexc hpatches (Nat.zero_le _) (le_refl _)
  · exact fetchBytes_spec address maxInstFetch 0 hm hexc

end Cpu

end Cpueaxh
