/-
# Dispatching the code hooks

`cpueaxh_dispatch_code_hooks` goes over the slots and calls the hooks of the type whose
range contains the address.  A callback may add and delete hooks, so the table changes
under the loop.  The loop counts down from the number of hooks that there were at the
start, and ends when that many have been passed.
-/
import Cpueaxh.HookTable
import Cpueaxh.SlotScan

namespace Cpueaxh

open Transition SlotScan

/-! ## The loop -/

/-- The host program: given a callback, its arguments, the table and the state of the host
program, the calls of the API that edit the table while the callback runs, and the new
state of the host program. -/
abbrev HostCode (ω : Type) : Type :=
  (callback address userData : U64) → HookTable → ω → List HookCall × ω

/-- What a dispatch has done: the table and the state of the host program now, the calls of
callbacks, and every table that there has been. -/
structure HookRun (ω : Type) where
  table : HookTable
  world : ω
  calls : List (HookSlot × HookEntry)
  tables : List HookTable

variable {ω : Type}

/-- The beginning of a dispatch. -/
def HookRun.start (table : HookTable) (world : ω) : HookRun ω where
  table
  world
  calls := []
  tables := [table]

/-- Call the callback of a hook. -/
def HookRun.callBack (host : HostCode ω) (address : U64) (index : HookSlot) (hook : HookEntry)
    (callback : U64) (r : HookRun ω) : HookRun ω :=
  let answer := host callback address hook.userData r.table r.world
  { table := run HookTable.edit r.table answer.1
    world := answer.2
    calls := r.calls ++ [(index, hook)]
    tables := r.tables ++ answer.1.scanl HookTable.edit r.table }

/-- The body of the loop behind the counter. -/
def HookRun.visit (host : HostCode ω) (address : U64) (index : HookSlot) (hook : HookEntry)
    (r : HookRun ω) : HookRun ω :=
  match hook.codeCallback with
  | none => r
  | some callback =>
    if cpueaxhRangeContains hook.first hook.last address then
      r.callBack host address index hook callback
    else r

/-- One slot of the loop; `p.2` is `remaining`. -/
def dispatchSlot (host : HostCode ω) (type : HookType) (address : U64) (p : HookRun ω × U16)
    (index : HookSlot) : HookRun ω × U16 :=
  if p.2 = 0 then p
  else
    match p.1.table.hooks index with
    | none => p
    | some hook =>
      if hook.type ≠ type then p else (p.1.visit host address index hook, p.2 - 1)

/-- The loop over the first `k` slots. -/
def dispatchLoop (host : HostCode ω) (type : HookType) (address : U64) (table : HookTable)
    (world : ω) (k : ℕ) : HookRun ω × U16 :=
  ((List.finRange cpueaxhMaxHooks).take k).foldl (dispatchSlot host type address)
    (.start table world, table.hookTypeCounts type)

/-- `cpueaxh_dispatch_code_hooks`. -/
def dispatchCodeHooks (host : HostCode ω) (type : HookType) (address : U64)
    (table : HookTable) (world : ω) : HookRun ω :=
  if table.hookTypeCounts type = 0 then .start table world
  else (dispatchLoop host type address table world cpueaxhMaxHooks).1

/-! ## What the loop should do -/

/-- The hook is in its slot in every table so far. -/
def HookRun.Kept (r : HookRun ω) (index : HookSlot) (hook : HookEntry) : Prop :=
  ∀ table ∈ r.tables, table.hooks index = some hook

instance (r : HookRun ω) (index : HookSlot) (hook : HookEntry) : Decidable (r.Kept index hook) :=
  inferInstanceAs (Decidable (∀ table ∈ r.tables, _))

/-- The address belongs to the hook; `points` are the hooks that
`cpueaxh_hook_add_address` has made. -/
def HookEntry.InReach (points : Set HookEntry) (hook : HookEntry) (address : U64) : Prop :=
  (hook ∈ points → address = hook.first) ∧
    (hook ∉ points → cpueaxhRangeContains hook.first hook.last address = true)

/-- The hook is there when the dispatch begins, and the event is for it. -/
structure HookTable.Due (table : HookTable) (points : Set HookEntry) (type : HookType)
    (address : U64) (index : HookSlot) (hook : HookEntry) : Prop where
  present : table.hooks index = some hook
  type_eq : hook.type = type
  inReach : hook.InReach points address

/-- Every hook that is due and has not been deleted before its turn is called exactly once,
and no slot is called twice; a hook stays in one slot from its addition to its deletion. -/
structure FiresOnce (host : HostCode ω) (points : Set HookEntry) (type : HookType)
    (address : U64) (table : HookTable) (world : ω) : Prop where
  once : ∀ index hook, table.Due points type address index hook →
    (dispatchLoop host type address table world index).1.Kept index hook →
    (dispatchCodeHooks host type address table world).calls.count (index, hook) = 1
  nodup : ((dispatchCodeHooks host type address table world).calls.map Prod.fst).Nodup

/-- Only hooks to which the address belongs are called. -/
def FiresInReach (host : HostCode ω) (points : Set HookEntry) (type : HookType)
    (address : U64) (table : HookTable) (world : ω) : Prop :=
  ∀ index hook, (index, hook) ∈ (dispatchCodeHooks host type address table world).calls →
    hook.type = type ∧ hook.InReach points address

/-! ## The walk over all slots -/

/-- The dispatch as a scan. -/
def hookVisitor (host : HostCode ω) (type : HookType) (address : U64) :
    Visitor cpueaxhMaxHooks HookEntry (HookRun ω) where
  slot r index := r.table.hooks index
  wanted hook := hook.type == type
  visit index hook r := r.visit host address index hook

/-- The first `k` slots of a dispatch that does not count; with it, the hooks of the type
that it has passed. -/
def hookWalk (host : HostCode ω) (type : HookType) (address : U64) (table : HookTable)
    (world : ω) (k : ℕ) : Progress cpueaxhMaxHooks HookEntry (HookRun ω) :=
  (hookVisitor host type address).walk (.start table world) k

variable {host : HostCode ω} {points : Set HookEntry} {type : HookType} {address : U64}
variable {table : HookTable} {world : ω} {stop : Progress cpueaxhMaxHooks HookEntry (HookRun ω) → Bool}

theorem hookVisitor_found {r : HookRun ω} {index : HookSlot} {hook : HookEntry} :
    (hookVisitor host type address).found r index = some hook ↔
      r.table.hooks index = some hook ∧ hook.type = type := by
  simp [Visitor.found, hookVisitor, Option.filter_eq_some_iff]

/-- The counter of the loop is what is left of the limit. -/
structure Counting (limit : ℕ) (p : HookRun ω × U16)
    (q : Progress cpueaxhMaxHooks HookEntry (HookRun ω)) : Prop where
  run_eq : p.1 = q.1
  count_eq : p.2.toNat + q.2.length = limit

/-- The loop ends where the limit is reached. -/
theorem Counting.zero_iff {limit : ℕ} {p : HookRun ω × U16}
    {q : Progress cpueaxhMaxHooks HookEntry (HookRun ω)} (h : Counting limit p q) :
    p.2 = 0 ↔ limit ≤ q.2.length := by
  have hcount := h.count_eq
  constructor
  · intro hzero
    have hnat : p.2.toNat = 0 := by
      rw [hzero]
      rfl
    omega
  · intro hle
    have hnat : (0 : U16).toNat = 0 := rfl
    exact BitVec.eq_of_toNat_eq (by omega)

/-- One slot of the loop and of the limited scan. -/
theorem Counting.slot {limit : ℕ} {p : HookRun ω × U16}
    {q : Progress cpueaxhMaxHooks HookEntry (HookRun ω)} (h : Counting limit p q)
    (index : HookSlot) :
    Counting limit (dispatchSlot host type address p index)
      (if decide (limit ≤ q.2.length) then q
        else (hookVisitor host type address).pass q index) := by
  unfold dispatchSlot
  by_cases hend : p.2 = 0
  · rw [if_pos hend, if_pos (decide_eq_true (h.zero_iff.mp hend))]
    exact h
  · rw [if_neg hend, if_neg (by simpa using hend ∘ h.zero_iff.mpr), h.run_eq]
    cases hslot : q.1.table.hooks index with
    | none =>
      have hskip : (hookVisitor host type address).found q.1 index = none := by
        simp [Visitor.found, hookVisitor, hslot]
      rw [pass_of_not_found hskip]
      exact h
    | some hook =>
      by_cases htype : hook.type = type
      · rw [pass_of_found (hookVisitor_found.mpr ⟨hslot, htype⟩)]
        simp only [htype, ne_eq, not_true, if_false]
        refine ⟨rfl, ?_⟩
        have hcount := h.count_eq
        have hpos : p.2.toNat ≠ 0 := fun hzero => hend (BitVec.eq_of_toNat_eq hzero)
        have hminus : (p.2 - 1).toNat = p.2.toNat - 1 := by bv_omega
        simp only [List.length_append, List.length_singleton, hminus]
        omega
      · have hskip : (hookVisitor host type address).found q.1 index = none := by
          simp [Visitor.found, hookVisitor, hslot, htype]
        rw [pass_of_not_found hskip]
        simp only [htype, ne_eq, not_false_eq_true, if_true]
        exact h

/-- **The loop is the limited scan.** -/
theorem dispatchLoop_counting (host : HostCode ω) (type : HookType) (address : U64)
    (table : HookTable) (world : ω) (k : ℕ) :
    Counting (table.hookTypeCounts type).toNat (dispatchLoop host type address table world k)
      ((hookVisitor host type address).limited (table.hookTypeCounts type).toNat
        (.start table world) k) :=
  run_simulation (Counting _) (fun _ _ index h _ => h.slot index) _ _ _
    ⟨rfl, by simp⟩ (along_of_forall (p := fun _ => True) _ (fun _ _ => trivial) _)

/-- The number of hooks of the type that there are when the dispatch begins. -/
abbrev HookTable.hookCount (table : HookTable) (type : HookType) : ℕ := (table.ofType type).card

theorem HookTable.Sound.dispatchLoop_eq (hs : table.Sound) (k : ℕ) :
    (dispatchLoop host type address table world k).1 =
      ((hookVisitor host type address).limited (table.hookCount type)
        (.start table world) k).1 := by
  have hrun := (dispatchLoop_counting host type address table world k).run_eq
  rwa [hs.counts_eq] at hrun

/-- **The dispatch is the limited scan** of all slots. -/
theorem HookTable.Sound.dispatch_eq (hs : table.Sound) :
    dispatchCodeHooks host type address table world =
      ((hookVisitor host type address).limited (table.hookCount type)
        (.start table world) cpueaxhMaxHooks).1 := by
  unfold dispatchCodeHooks
  split_ifs with hzero
  · have hcount : table.hookCount type = 0 := by
      rw [hookCount, ← hs.counts_eq type, hzero]
      rfl
    have hstays : (hookVisitor host type address).limited (table.hookCount type)
        (.start table world) cpueaxhMaxHooks =
          (hookVisitor host type address).limited (table.hookCount type) (.start table world) 0 :=
      limited_stays (by rw [hcount]; rfl) (Nat.zero_le cpueaxhMaxHooks)
    rw [hstays]
    rfl
  · exact hs.dispatchLoop_eq cpueaxhMaxHooks

/-! ## Which callbacks are called -/

/-- The callback of a visited hook is called. -/
def HookEntry.fires (hook : HookEntry) (address : U64) : Bool :=
  hook.codeCallback.isSome && cpueaxhRangeContains hook.first hook.last address

theorem HookRun.visit_calls (r : HookRun ω) (index : HookSlot) (hook : HookEntry) :
    (r.visit host address index hook).calls =
      r.calls ++ if hook.fires address then [(index, hook)] else [] := by
  unfold visit HookEntry.fires
  split
  · rename_i hnone
    simp [hnone]
  · rename_i callback hsome
    cases hrange : cpueaxhRangeContains hook.first hook.last address <;> simp [hsome, callBack]

theorem HookRun.visit_tables (r : HookRun ω) (index : HookSlot) (hook : HookEntry) :
    r.tables <+: (r.visit host address index hook).tables := by
  unfold visit
  split
  · exact List.prefix_rfl
  · split_ifs
    · exact List.prefix_append _ _
    · exact List.prefix_rfl

/-- The calls of a scan are its visits of the hooks that fire. -/
theorem scan_calls (k : ℕ) :
    ((hookVisitor host type address).scan stop (.start table world) k).1.calls =
      ((hookVisitor host type address).scan stop (.start table world) k).2.filter
        fun call => call.2.fires address := by
  induction k with
  | zero => rfl
  | succ k ih =>
    by_cases hk : k < cpueaxhMaxHooks
    · rw [scan_succ hk]
      split_ifs
      · exact ih
      · cases hfound : (hookVisitor host type address).found
            ((hookVisitor host type address).scan stop (.start table world) k).1 ⟨k, hk⟩ with
        | none =>
          rw [pass_of_not_found hfound]
          exact ih
        | some hook =>
          rw [pass_of_found hfound, List.filter_append, ← ih]
          refine (HookRun.visit_calls _ _ _).trans ?_
          cases hfires : hook.fires address <;> simp [hfires]
    · rw [scan_eq_of_le hk]
      exact ih

/-- The calls in the last table, and the invariant of all tables. -/
structure HookRun.Good (r : HookRun ω) : Prop where
  current : r.table ∈ r.tables
  sound : r.table.Sound

theorem HookRun.Good.visit {r : HookRun ω} (hr : r.Good) (index : HookSlot)
    (hook : HookEntry) : (r.visit host address index hook).Good := by
  unfold HookRun.visit
  split
  · exact hr
  · rename_i callback _
    split_ifs
    · refine ⟨?_, ?_⟩
      · refine List.mem_append_right _ ?_
        simp only [callBack, run]
        exact List.mem_of_getLast? List.getLast?_scanl
      · exact run_invariant_always HookTable.Sound (fun _ call hs => hs.edit call) _ _ hr.sound
    · exact hr

theorem scan_good (hs : table.Sound) (k : ℕ) :
    ((hookVisitor host type address).scan stop (.start table world) k).1.Good :=
  scan_invariant HookRun.Good (fun _ _ _ hr _ => hr.visit _ _) ⟨by simp [HookRun.start], hs⟩ k

theorem scan_kept {k m : ℕ} (hkm : k ≤ m) {index : HookSlot} {hook : HookEntry}
    (h : ((hookVisitor host type address).scan stop (.start table world) m).1.Kept index hook) :
    ((hookVisitor host type address).scan stop (.start table world) k).1.Kept index hook :=
  fun t ht => h t ((scan_relation (fun r r' : HookRun ω => r.tables <+: r'.tables)
    (fun _ => List.prefix_rfl) (fun _ _ _ => List.IsPrefix.trans)
    (fun r _ _ => r.visit_tables _ _) hkm).subset ht)

/-- **Turns.**  A hook is called exactly when it is in its slot, of the type, at its turn,
and fewer hooks have been passed than there were at the start. -/
theorem HookTable.Sound.mem_calls_iff (hs : table.Sound) {index : HookSlot} {hook : HookEntry} :
    (index, hook) ∈ (dispatchCodeHooks host type address table world).calls ↔
      (hookWalk host type address table world index).2.length < table.hookCount type ∧
        (hookWalk host type address table world index).1.table.hooks index = some hook ∧
        hook.type = type ∧ hook.fires address = true := by
  have hmem : (index, hook) ∈ (dispatchCodeHooks host type address table world).calls ↔
      (((hookVisitor host type address).limited (table.hookCount type)
          (.start table world) index).2.length < table.hookCount type ∧
        ((hookVisitor host type address).limited (table.hookCount type)
          (.start table world) index).1.table.hooks index = some hook ∧ hook.type = type) ∧
      hook.fires address = true := by
    rw [hs.dispatch_eq]
    unfold Visitor.limited
    rw [scan_calls, List.mem_filter, mem_scan, hookVisitor_found]
    simp only [decide_eq_false_iff_not, not_le, index.isLt, true_and]
  rw [hmem, hookWalk]
  rcases limited_cases (hookVisitor host type address) (.start table world)
    (table.hookCount type) index with ⟨heq, hlt⟩ | ⟨m, hm, heq, hlength⟩
  · rw [heq]
    tauto
  · -- the visits are used up before the turn of the slot, in the walk too
    have hwalk : ¬ ((hookVisitor host type address).walk (.start table world) index).2.length <
        table.hookCount type := by
      intro hlt
      rw [← limited_eq_walk hlt.le, heq] at hlt
      omega
    rw [heq]
    simp [hlength, hwalk]

theorem HookTable.Sound.calls_nodup (hs : table.Sound) :
    ((dispatchCodeHooks host type address table world).calls.map Prod.fst).Nodup := by
  rw [hs.dispatch_eq]
  unfold Visitor.limited
  rw [scan_calls]
  exact (scan_nodup cpueaxhMaxHooks).sublist (List.filter_sublist.map Prod.fst)

theorem HookTable.Sound.count_calls (hs : table.Sound) {index : HookSlot} {hook : HookEntry} :
    (dispatchCodeHooks host type address table world).calls.count (index, hook) = 1 ↔
      (index, hook) ∈ (dispatchCodeHooks host type address table world).calls := by
  constructor
  · intro h
    exact List.count_pos_iff.mp (by omega)
  · exact List.count_eq_one_of_mem hs.calls_nodup.of_map

/-! ## When every due hook is called -/

theorem rangeContains_self (address : U64) : cpueaxhRangeContains address address address = true := by
  unfold cpueaxhRangeContains
  split_ifs <;> simp

theorem rangeContains_point {first address : U64} (h : first ≠ 0)
    (hrange : cpueaxhRangeContains first first address = true) : address = first := by
  simp only [cpueaxhRangeContains, h, and_self, if_false, Bool.and_eq_true,
    decide_eq_true_eq] at hrange
  exact BitVec.le_antisymm hrange.2 hrange.1

/-- The range of a hook contains the addresses that belong to it. -/
theorem HookEntry.InReach.range {hook : HookEntry} (h : hook.InReach points address)
    (hpoints : ∀ hook ∈ points, hook.first = hook.last) :
    cpueaxhRangeContains hook.first hook.last address = true := by
  by_cases hpoint : hook ∈ points
  · rw [h.1 hpoint, ← hpoints hook hpoint]
    exact rangeContains_self _
  · exact h.2 hpoint

/-- While a hook that is due is still ahead, fewer hooks of the type have been passed than
there were at the start. -/
def TurnsInTime (host : HostCode ω) (points : Set HookEntry) (type : HookType)
    (address : U64) (table : HookTable) (world : ω) : Prop :=
  ∀ index hook k, table.Due points type address index hook → k ≤ index.val →
    (hookWalk host type address table world k).1.Kept index hook →
    (hookWalk host type address table world k).2.length < table.hookCount type

/-- No hook that `cpueaxh_hook_add_address` has made for the address 0 gets its turn at
another address. -/
def NoZeroPoint (host : HostCode ω) (points : Set HookEntry) (type : HookType)
    (address : U64) (table : HookTable) (world : ω) : Prop :=
  ∀ (index : HookSlot) hook, hook ∈ points → hook.first = 0 → hook.type = type →
    (hookWalk host type address table world index).1.table.hooks index = some hook →
    (hookWalk host type address table world index).2.length < table.hookCount type →
    address = 0

/-- A hook of a code type that is in a table of the dispatch fires if its range contains
the address. -/
theorem HookRun.Good.fires {r : HookRun ω} (hr : r.Good) {index : HookSlot} {hook : HookEntry}
    (hslot : r.table.hooks index = some hook) (hcode : hook.type.isCode = true)
    (hrange : cpueaxhRangeContains hook.first hook.last address = true) :
    hook.fires address = true := by
  unfold HookEntry.fires
  rw [hr.sound.armed index hook hslot hcode, hrange]
  rfl

/-- A due hook that is still there at its turn is called if the turn comes in time. -/
theorem HookTable.Sound.called_of_due (hs : table.Sound) (hcode : type.isCode = true)
    (hpoints : ∀ hook ∈ points, hook.first = hook.last) {index : HookSlot} {hook : HookEntry}
    (hdue : table.Due points type address index hook)
    (hkept : (hookWalk host type address table world index).1.Kept index hook)
    (htime : (hookWalk host type address table world index).2.length < table.hookCount type) :
    (index, hook) ∈ (dispatchCodeHooks host type address table world).calls := by
  have hgood : (hookWalk host type address table world index).1.Good := scan_good hs _
  have hslot := hkept _ hgood.current
  exact hs.mem_calls_iff.mpr ⟨htime, hslot, hdue.type_eq,
    hgood.fires hslot (hdue.type_eq ▸ hcode) (hdue.inReach.range hpoints)⟩

/-- **Once.**  Every due hook is called exactly once if and only if the turns come in
time. -/
theorem HookTable.Sound.firesOnce_iff (hs : table.Sound) (hcode : type.isCode = true)
    (hpoints : ∀ hook ∈ points, hook.first = hook.last) :
    FiresOnce host points type address table world ↔
      TurnsInTime host points type address table world := by
  constructor
  · intro hfires index hook k hdue hk hkept
    rcases limited_cases (hookVisitor host type address) (.start table world)
      (table.hookCount type) k with ⟨-, hlt⟩ | ⟨m, hm, heq, hlength⟩
    · exact hlt
    · -- the visits are used up at `m`, and the hook stays in its slot from there on
      exfalso
      have hused : ((hookVisitor host type address).limited (table.hookCount type)
          (.start table world) k).2.length = table.hookCount type := heq ▸ hlength
      have hstays := limited_stays hused hk
      have hkeptLoop : (dispatchLoop host type address table world index).1.Kept index hook := by
        rw [hs.dispatchLoop_eq, hstays, heq]
        exact scan_kept hm hkept
      have hcalled := hs.count_calls.mp (hfires.once index hook hdue hkeptLoop)
      have hlt := (hs.mem_calls_iff.mp hcalled).1
      have hwalk := limited_eq_walk (v := hookVisitor host type address)
        (s := HookRun.start table world) hlt.le
      rw [hookWalk, ← hwalk, hstays] at hlt
      omega
  · intro htime
    refine ⟨fun index hook hdue hkept => hs.count_calls.mpr ?_, hs.calls_nodup⟩
    rw [hs.dispatchLoop_eq] at hkept
    rcases limited_cases (hookVisitor host type address) (.start table world)
      (table.hookCount type) index with ⟨heq, hlt⟩ | ⟨m, hm, heq, hlength⟩
    · rw [heq] at hkept
      exact hs.called_of_due hcode hpoints hdue hkept hlt
    · rw [heq] at hkept
      exact absurd (htime index hook m hdue hm hkept) (by rw [hookWalk]; omega)

/-- **In reach.**  Only hooks to which the address belongs are called if and only if no
hook for the address 0 gets its turn. -/
theorem HookTable.Sound.firesInReach_iff (hs : table.Sound) (hcode : type.isCode = true)
    (hpoints : ∀ hook ∈ points, hook.first = hook.last) :
    FiresInReach host points type address table world ↔
      NoZeroPoint host points type address table world := by
  constructor
  · intro hreach index hook hpoint hzero htype hslot hlt
    have hgood : (hookWalk host type address table world index).1.Good := scan_good hs _
    have hrange : cpueaxhRangeContains hook.first hook.last address = true := by
      rw [← hpoints hook hpoint, hzero]
      rfl
    have hfires := hgood.fires hslot (htype ▸ hcode) hrange
    have hcalled := hs.mem_calls_iff.mpr ⟨hlt, hslot, htype, hfires⟩
    exact ((hreach index hook hcalled).2.1 hpoint).trans hzero
  · intro hzero index hook hcalled
    obtain ⟨hlt, hslot, htype, hfires⟩ := hs.mem_calls_iff.mp hcalled
    have hrange := (Bool.and_eq_true_iff.mp hfires).2
    refine ⟨htype, fun hpoint => ?_, fun _ => hrange⟩
    by_cases hfirst : hook.first = 0
    · exact (hzero index hook hpoint hfirst htype hslot hlt).trans hfirst.symm
    · rw [← hpoints hook hpoint] at hrange
      exact rangeContains_point hfirst hrange

/-- **`cpueaxh_dispatch_code_hooks`** calls every due hook exactly once if and only if the
turns of the hooks come in time, and calls a hook at an address that is not its own if and
only if it was made for the address 0. -/
theorem dispatchCodeHooks_law (host : HostCode ω) (points : Set HookEntry)
    (hpoints : ∀ hook ∈ points, hook.first = hook.last) (type : HookType)
    (hcode : type.isCode = true) (address : U64) (table : HookTable) (hs : table.Sound)
    (world : ω) :
    (FiresOnce host points type address table world ↔
        TurnsInTime host points type address table world) ∧
      (FiresInReach host points type address table world ↔
        NoZeroPoint host points type address table world) :=
  ⟨hs.firesOnce_iff hcode hpoints, hs.firesInReach_iff hcode hpoints⟩

/-- Two hooks before instructions, with a free slot between them. -/
def gapTable : HookTable :=
  run HookTable.edit .empty
    [.hookAdd 1 (some 0x100) 0 0 0, .hookAdd 2 (some 0x100) 0 0 0, .hookAdd 1 (some 0x200) 0 0 0,
      .hookDel 2]

/-- A callback at `0x100` that adds a hook before instructions; the others do nothing. -/
def addingHost : HostCode Unit := fun callback _ _ _ world =>
  (if callback = 0x100 then [.hookAdd 1 (some 0x300) 0 0 0] else [], world)

/-- The new hook takes the free slot, and the second hook is not called. -/
theorem dispatch_misses_hook : ¬ FiresOnce addingHost ∅ .codePre 0x1000 gapTable () := by
  intro h
  have hdue : gapTable.Due ∅ .codePre 0x1000 2
      (newHookEntry 3 .codePre 0x200 0 0 0) :=
    ⟨rfl, rfl, fun hpoint => absurd hpoint (Set.notMem_empty _), fun _ => rfl⟩
  have honce := h.once 2 _ hdue (by decide +kernel)
  exact absurd honce (by decide +kernel)

theorem dispatchCodeHooks_law_gap :
    (FiresOnce addingHost ∅ .codePre 0x1000 gapTable () ↔
        TurnsInTime addingHost ∅ .codePre 0x1000 gapTable ()) ∧
      (FiresInReach addingHost ∅ .codePre 0x1000 gapTable () ↔
        NoZeroPoint addingHost ∅ .codePre 0x1000 gapTable ()) :=
  dispatchCodeHooks_law addingHost ∅ (fun hook h => absurd h (Set.notMem_empty hook)) .codePre
    rfl 0x1000 gapTable (sound_of_run _) ()

/-! ## Callbacks that add no hook of the type -/

/-- The hooks of the type in the slots from `k` on. -/
def HookTable.ahead (table : HookTable) (type : HookType) (k : ℕ) : Finset HookSlot :=
  (table.ofType type).filter fun index => k ≤ index.val

theorem ahead_succ_subset (table : HookTable) (type : HookType) (k : ℕ) :
    table.ahead type (k + 1) ⊆ table.ahead type k := by
  intro index hindex
  obtain ⟨hof, hle⟩ := Finset.mem_filter.mp hindex
  exact Finset.mem_filter.mpr ⟨hof, by omega⟩

/-- No callback adds a hook of the type. -/
def HostCode.AddsNone (host : HostCode ω) (type : HookType) : Prop :=
  ∀ callback address userData table (world : ω),
    ∀ call ∈ (host callback address userData table world).1, call.addedType ≠ some type

theorem HostCode.AddsNone.visit_subset (hhost : host.AddsNone type) (r : HookRun ω)
    (index : HookSlot) (hook : HookEntry) :
    (r.visit host address index hook).table.ofType type ⊆ r.table.ofType type := by
  unfold HookRun.visit
  split
  · exact Finset.Subset.refl _
  · rename_i callback _
    split_ifs
    · simp only [HookRun.callBack]
      have halong : Along HookTable.edit (fun _ call => call.addedType ≠ some type) r.table
          (host callback address hook.userData r.table r.world).1 :=
        along_of_forall _ (hhost callback address hook.userData r.table r.world) r.table
      exact run_invariant (fun t : HookTable => t.ofType type ⊆ r.table.ofType type)
        (fun t call ht hcall => (t.ofType_edit_subset hcall).trans ht) _ _
        (Finset.Subset.refl _) halong
    · exact Finset.Subset.refl _

/-- The hooks passed and the hooks ahead are together at most those of the start. -/
theorem HostCode.AddsNone.walk_le (hhost : host.AddsNone type) (k : ℕ) :
    (hookWalk host type address table world k).2.length +
        ((hookWalk host type address table world k).1.table.ahead type k).card ≤
      table.hookCount type := by
  induction k with
  | zero =>
    have hle := Finset.card_le_card (Finset.filter_subset (fun index : HookSlot => 0 ≤ index.val)
      (table.ofType type))
    exact (Nat.zero_add _).trans_le hle
  | succ k ih =>
    by_cases hk : k < cpueaxhMaxHooks
    · have hnext : hookWalk host type address table world (k + 1) =
          (hookVisitor host type address).pass (hookWalk host type address table world k) ⟨k, hk⟩ :=
        walk_succ hk
      rw [hnext]
      cases hfound : (hookVisitor host type address).found
          (hookWalk host type address table world k).1 ⟨k, hk⟩ with
      | none =>
        rw [pass_of_not_found hfound]
        exact le_trans (Nat.add_le_add_left (Finset.card_le_card (ahead_succ_subset _ _ _)) _) ih
      | some hook =>
        obtain ⟨hslot, htype⟩ := hookVisitor_found.mp hfound
        have hmem : (⟨k, hk⟩ : HookSlot) ∈
            (hookWalk host type address table world k).1.table.ahead type k :=
          Finset.mem_filter.mpr ⟨HookTable.mem_ofType.mpr ⟨hook, hslot, htype⟩, le_rfl⟩
        have hsubset : ((hookWalk host type address table world k).1.visit host address ⟨k, hk⟩
            hook).table.ahead type (k + 1) ⊆
              ((hookWalk host type address table world k).1.table.ahead type k).erase ⟨k, hk⟩ := by
          intro index hindex
          obtain ⟨hof, hlt⟩ := Finset.mem_filter.mp hindex
          have hne : index ≠ ⟨k, hk⟩ := fun heq => absurd hlt (by simp [heq])
          exact Finset.mem_erase.mpr ⟨hne, Finset.mem_filter.mpr
            ⟨hhost.visit_subset _ _ _ hof, by omega⟩⟩
        have hcard := Finset.card_le_card hsubset
        rw [Finset.card_erase_of_mem hmem] at hcard
        have hpos := Finset.card_pos.mpr ⟨_, hmem⟩
        rw [pass_of_found hfound, List.length_append, List.length_singleton]
        simp only [hookVisitor]
        omega
    · have hsame : hookWalk host type address table world (k + 1) =
          hookWalk host type address table world k := scan_eq_of_le hk
      rw [hsame]
      exact le_trans (Nat.add_le_add_left (Finset.card_le_card (ahead_succ_subset _ _ _)) _) ih

/-- If no callback adds a hook of the type, the turns come in time. -/
theorem HostCode.AddsNone.turnsInTime (hhost : host.AddsNone type) (hs : table.Sound) :
    TurnsInTime host points type address table world := by
  intro index hook k hdue hk hkept
  have hgood : (hookWalk host type address table world k).1.Good := scan_good hs _
  have hahead : index ∈ (hookWalk host type address table world k).1.table.ahead type k :=
    Finset.mem_filter.mpr
      ⟨HookTable.mem_ofType.mpr ⟨hook, hkept _ hgood.current, hdue.type_eq⟩, hk⟩
  have hpos := Finset.card_pos.mpr ⟨index, hahead⟩
  have hle := @walk_le ω host type address table world hhost k
  omega

end Cpueaxh
