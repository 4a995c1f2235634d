/-
# The table of hooks

An engine has 64 slots for hooks, and counts the hooks of each type.  A new hook takes the
first free slot, and a deletion frees the slot of the hook.  The escapes stand next to each
other in an array that grows, with an index from each instruction into the array.  Hooks and
escapes get their handles from one counter.
-/
import Cpueaxh.Escapes
import Cpueaxh.CpuAccess
import Cpueaxh.Transition
import Mathlib.Data.Fintype.Card
import Mathlib.Data.Fintype.Fin

namespace Cpueaxh

open Transition

/-! ## Entries -/

/-- The value of a hook type in the interface. -/
def HookType.code : HookType → U32
  | .codePre => 1
  | .codePost => 2
  | .memRead => 3
  | .memWrite => 4
  | .memFetch => 5
  | .memReadUnmapped => 6
  | .memWriteUnmapped => 7
  | .memFetchUnmapped => 8
  | .memReadProt => 9
  | .memWriteProt => 10
  | .memFetchProt => 11

/-- `cpueaxh_is_supported_hook_type`: the type of a value. -/
def supportedHookType (type : U32) : Option HookType :=
  [HookType.codePre, .codePost, .memRead, .memWrite, .memFetch, .memReadUnmapped,
    .memWriteUnmapped, .memFetchUnmapped, .memReadProt, .memWriteProt, .memFetchProt].find?
      fun t => type == t.code

/-- `cpueaxh_is_code_hook_type`. -/
def HookType.isCode : HookType → Bool
  | .codePre => true
  | .codePost => true
  | _ => false

/-- `cpueaxh_is_invalid_memory_hook_type`. -/
def HookType.isInvalidMemory : HookType → Bool
  | .memReadUnmapped | .memWriteUnmapped | .memFetchUnmapped => true
  | .memReadProt | .memWriteProt | .memFetchProt => true
  | _ => false

/-- `CPUEAXH_HOOK_ENTRY` of a used slot; the callbacks are addresses of host code. -/
structure HookEntry where
  handle : U64
  type : HookType
  codeCallback : Option U64
  memCallback : Option U64
  invalidMemCallback : Option U64
  userData : U64
  first : U64
  last : U64
  deriving DecidableEq, Repr

/-- `CPUEAXH_MAX_HOOKS`. -/
abbrev cpueaxhMaxHooks : ℕ := 64

/-- An index of `engine->hooks`. -/
abbrev HookSlot : Type := Fin cpueaxhMaxHooks

/-- `CPUEAXH_ESCAPE_ENTRY`; the callback is an address of host code. -/
structure EscapeRecord where
  handle : U64
  callback : U64
  userData : U64
  first : U64
  last : U64
  instructionId : U32
  deriving DecidableEq, Repr

/-- The part of `cpueaxh_engine` that the hooks and the escapes take: `hooks`, where a slot
that is not used is `none`, `hook_type_counts`, `next_hook`, the `escape_count` first entries
of `escapes`, `escape_capacity`, and `escape_index_by_id`, which only valid identifiers
index. -/
structure HookTable where
  hooks : HookSlot → Option HookEntry
  hookTypeCounts : HookType → U16
  nextHook : U64
  escapes : List EscapeRecord
  escapeCapacity : ℕ
  escapeIndexById : U32 → U8

/-- The table of a new engine. -/
def HookTable.empty : HookTable where
  hooks := fun _ => none
  hookTypeCounts := fun _ => 0
  nextHook := 1
  escapes := []
  escapeCapacity := 0
  escapeIndexById := fun _ => 0

/-! ## The index of the escapes -/

/-- `CPUEAXH_ESCAPE_INSN_MAX`. -/
def cpueaxhEscapeInsnMax : U32 := 19

/-- `cpueaxh_is_escape_index_valid`. -/
def cpueaxhIsEscapeIndexValid (id : U32) : Bool :=
  decide (0 < id) && decide (id ≤ cpueaxhEscapeInsnMax)

/-- The index that an array of escapes gets; the positions are counted from one, and an
entry behind the first 255 gets none. -/
def escapeIndex (escapes : List EscapeRecord) : U32 → U8 :=
  escapes.zipIdx.foldl (fun index entry =>
    if cpueaxhIsEscapeIndexValid entry.1.instructionId && decide (entry.2 < 0xFF) then
      Function.update index entry.1.instructionId (BitVec.ofNat 8 (entry.2 + 1))
    else index) fun _ => 0

/-- `cpueaxh_rebuild_escape_index`. -/
def cpueaxhRebuildEscapeIndex (table : HookTable) : HookTable :=
  { table with escapeIndexById := escapeIndex table.escapes }

/-- `cpueaxh_lookup_escape_entry`. -/
def cpueaxhLookupEscapeEntry (table : HookTable) (id : U32) : Option EscapeRecord :=
  if !cpueaxhIsEscapeIndexValid id then none
  else
    let encodedIndex := table.escapeIndexById id
    if encodedIndex = 0 then none
    else (table.escapes[encodedIndex.toNat - 1]?).filter fun escape => escape.instructionId == id

/-! ## Calls of the host program -/

def cpueaxhErrNomem : CpueaxhErr := 1
def cpueaxhErrArg : CpueaxhErr := 2
def cpueaxhErrHook : CpueaxhErr := 10

/-- `cpueaxh_adjust_hook_type_count`. -/
def adjustHookTypeCount (table : HookTable) (type : HookType) (delta : ℤ) : HookTable :=
  if delta = 0 then table
  else
    let count := table.hookTypeCounts type
    let adjusted : U16 :=
      if 0 < delta then count + BitVec.ofInt 16 delta
      else
        let amount := BitVec.ofInt 16 (-delta)
        if amount < count then count - amount else 0
    { table with hookTypeCounts := Function.update table.hookTypeCounts type adjusted }

/-- The first slot with a property. -/
def HookTable.firstSlot (table : HookTable) (p : Option HookEntry → Bool) : Option HookSlot :=
  (List.finRange cpueaxhMaxHooks).find? fun index => p (table.hooks index)

/-- The entry that `cpueaxh_hook_add` writes. -/
def newHookEntry (handle : U64) (type : HookType) (callback userData first last : U64) :
    HookEntry where
  handle
  type
  codeCallback := if type.isCode then some callback else none
  invalidMemCallback :=
    if type.isCode then none else if type.isInvalidMemory then some callback else none
  memCallback :=
    if type.isCode then none else if type.isInvalidMemory then none else some callback
  userData
  first
  last

/-- `cpueaxh_hook_add`: the handle and the new table; a null `callback` is `none`. -/
def cpueaxhHookAdd (table : HookTable) (type : U32) (callback : Option U64)
    (userData first last : U64) : Except CpueaxhErr (U64 × HookTable) :=
  match callback with
  | none => .error cpueaxhErrArg
  | some callback =>
    match supportedHookType type with
    | none => .error cpueaxhErrHook
    | some type =>
      match table.firstSlot fun slot => slot.isNone with
      | none => .error cpueaxhErrHook
      | some index =>
        let entry := newHookEntry table.nextHook type callback userData first last
        let table := { table with
          hooks := Function.update table.hooks index (some entry)
          nextHook := table.nextHook + 1 }
        .ok (entry.handle, adjustHookTypeCount table type 1)

/-- `cpueaxh_hook_add_address`. -/
def cpueaxhHookAddAddress (table : HookTable) (type : U32) (callback : Option U64)
    (userData address : U64) : Except CpueaxhErr (U64 × HookTable) :=
  cpueaxhHookAdd table type callback userData address address

/-- `cpueaxh_hook_del`, also of an escape. -/
def cpueaxhHookDel (table : HookTable) (handle : U64) : Except CpueaxhErr HookTable :=
  match table.firstSlot fun slot => slot.any fun hook => hook.handle == handle with
  | some index =>
    match table.hooks index with
    | some hook =>
      let table := adjustHookTypeCount table hook.type (-1)
      .ok { table with hooks := Function.update table.hooks index none }
    | none => .ok table
  | none =>
    if table.escapes.any fun escape => escape.handle == handle then
      .ok (cpueaxhRebuildEscapeIndex
        { table with escapes := table.escapes.eraseP fun escape => escape.handle == handle })
    else .error cpueaxhErrHook

/-- The doubling loop of `cpueaxh_ensure_escape_capacity`, with the turns that are left. -/
def doubledCapacity (required : ℕ) : ℕ → ℕ → ℕ
  | 0, capacity => capacity
  | left + 1, capacity =>
    if capacity < required then doubledCapacity required left (capacity * 2) else capacity

/-- `cpueaxh_ensure_escape_capacity`; `allocated` tells whether there is memory for a larger
array. -/
def cpueaxhEnsureEscapeCapacity (table : HookTable) (required : ℕ) (allocated : Bool) :
    CpueaxhErr × HookTable :=
  if required ≤ table.escapeCapacity then (cpueaxhErrOk, table)
  else
    let capacity := if table.escapeCapacity = 0 then 8 else table.escapeCapacity
    if !allocated then (cpueaxhErrNomem, table)
    else (cpueaxhErrOk, { table with escapeCapacity := doubledCapacity required required capacity })

/-- `cpueaxh_escape_add`: the handle or the error, and the table. -/
def cpueaxhEscapeAdd (table : HookTable) (id : U32) (callback : Option U64)
    (userData first last : U64) (allocated : Bool) : Except CpueaxhErr U64 × HookTable :=
  match callback with
  | none => (.error cpueaxhErrArg, table)
  | some callback =>
    if id = 0 then (.error cpueaxhErrArg, table)
    else if (cpueaxhLookupEscapeEntry table id).isSome then (.error cpueaxhErrHook, table)
    else
      match cpueaxhEnsureEscapeCapacity table (table.escapes.length + 1) allocated with
      | (error, table) =>
        if error ≠ cpueaxhErrOk then (.error error, table)
        else
          let escape : EscapeRecord := ⟨table.nextHook, callback, userData, first, last, id⟩
          (.ok escape.handle, cpueaxhRebuildEscapeIndex
            { table with escapes := table.escapes ++ [escape], nextHook := table.nextHook + 1 })

/-- A call that edits the table. -/
inductive HookCall where
  | hookAdd (type : U32) (callback : Option U64) (userData first last : U64)
  | hookAddAddress (type : U32) (callback : Option U64) (userData address : U64)
  | hookDel (handle : U64)
  | escapeAdd (id : U32) (callback : Option U64) (userData first last : U64) (allocated : Bool)
  deriving DecidableEq, Repr

/-- The error of a call, or `CPUEAXH_ERR_OK`, and the table behind it. -/
def HookTable.answer (table : HookTable) : HookCall → CpueaxhErr × HookTable
  | .hookAdd type callback userData first last =>
    match cpueaxhHookAdd table type callback userData first last with
    | .ok (_, table) => (cpueaxhErrOk, table)
    | .error error => (error, table)
  | .hookAddAddress type callback userData address =>
    match cpueaxhHookAddAddress table type callback userData address with
    | .ok (_, table) => (cpueaxhErrOk, table)
    | .error error => (error, table)
  | .hookDel handle =>
    match cpueaxhHookDel table handle with
    | .ok table => (cpueaxhErrOk, table)
    | .error error => (error, table)
  | .escapeAdd id callback userData first last allocated =>
    match cpueaxhEscapeAdd table id callback userData first last allocated with
    | (.ok _, table) => (cpueaxhErrOk, table)
    | (.error error, table) => (error, table)

/-- The table after a call. -/
def HookTable.edit (table : HookTable) (call : HookCall) : HookTable := (table.answer call).2

/-! ## What a call changes -/

theorem firstSlot_some {table : HookTable} {p : Option HookEntry → Bool} {index : HookSlot}
    (h : table.firstSlot p = some index) : p (table.hooks index) = true :=
  List.find?_some (p := fun index => p (table.hooks index)) h

theorem firstSlot_none {table : HookTable} {p : Option HookEntry → Bool}
    (h : table.firstSlot p = none) (index : HookSlot) : p (table.hooks index) = false := by
  simpa using List.find?_eq_none.mp h index (List.mem_finRange index)

/-- A new hook of a code type has a code callback. -/
def HookEntry.Armed (hook : HookEntry) : Prop :=
  hook.type.isCode = true → hook.codeCallback.isSome = true

theorem newHookEntry_armed (handle : U64) (type : HookType)
    (callback userData first last : U64) :
    (newHookEntry handle type callback userData first last).Armed := by
  intro htype
  simp only [newHookEntry] at htype ⊢
  simp [htype]

/-- The entry stands in a slot that was free. -/
structure HookTable.Added (table table' : HookTable) (index : HookSlot) (hook : HookEntry) :
    Prop where
  free : table.hooks index = none
  armed : hook.Armed
  hooks_eq : table'.hooks = Function.update table.hooks index (some hook)
  counts_eq : table'.hookTypeCounts =
    Function.update table.hookTypeCounts hook.type (table.hookTypeCounts hook.type + 1)

/-- The slot of the entry is free again. -/
structure HookTable.Removed (table table' : HookTable) (index : HookSlot) (hook : HookEntry) :
    Prop where
  used : table.hooks index = some hook
  hooks_eq : table'.hooks = Function.update table.hooks index none
  counts_eq : table'.hookTypeCounts =
    Function.update table.hookTypeCounts hook.type
      (if 1 < table.hookTypeCounts hook.type then table.hookTypeCounts hook.type - 1 else 0)

/-- The slots and the counters are as before. -/
def HookTable.SameHooks (table table' : HookTable) : Prop :=
  table'.hooks = table.hooks ∧ table'.hookTypeCounts = table.hookTypeCounts

theorem HookTable.SameHooks.refl (table : HookTable) : table.SameHooks table := ⟨rfl, rfl⟩

/-- **`cpueaxh_hook_add`** writes the new entry into a free slot. -/
theorem hookAdd_ok {table table' : HookTable} {type : U32} {callback : Option U64}
    {userData first last handle : U64}
    (h : cpueaxhHookAdd table type callback userData first last = .ok (handle, table')) :
    ∃ index type' callback', supportedHookType type = some type' ∧ callback = some callback' ∧
      handle = table.nextHook ∧ table'.nextHook = table.nextHook + 1 ∧
      table.Added table' index
        (newHookEntry table.nextHook type' callback' userData first last) := by
  unfold cpueaxhHookAdd at h
  split at h
  · cases h
  · rename_i callback'
    split at h
    · cases h
    · rename_i type' htype
      split at h
      · cases h
      · rename_i index hslot
        injection h with h
        injection h with hhandle htable
        subst htable
        exact ⟨index, type', callback', htype, rfl, hhandle.symm, rfl,
          { free := Option.isNone_iff_eq_none.mp
              (firstSlot_some (p := fun slot => slot.isNone) hslot)
            armed := newHookEntry_armed _ _ _ _ _ _
            hooks_eq := rfl
            counts_eq := rfl }⟩

/-- **`cpueaxh_hook_add_address`** makes a hook whose range is the address. -/
theorem hookAddAddress_ok {table table' : HookTable} {type : U32} {callback : Option U64}
    {userData address handle : U64}
    (h : cpueaxhHookAddAddress table type callback userData address = .ok (handle, table')) :
    ∃ index hook, table.Added table' index hook ∧ supportedHookType type = some hook.type ∧
      hook.first = address ∧ hook.last = address := by
  obtain ⟨index, type', callback', htype, -, -, -, hadded⟩ := hookAdd_ok h
  exact ⟨index, _, hadded, htype, rfl, rfl⟩

/-- **`cpueaxh_hook_del`** frees the slot of a hook with the handle, or removes an
escape. -/
theorem hookDel_ok {table table' : HookTable} {handle : U64}
    (h : cpueaxhHookDel table handle = .ok table') :
    (∃ index hook, hook.handle = handle ∧ table.Removed table' index hook) ∨
      table.SameHooks table' := by
  unfold cpueaxhHookDel at h
  split at h
  · rename_i index hslot
    have hmatch := firstSlot_some (p := fun slot => slot.any fun hook => hook.handle == handle) hslot
    split at h
    · rename_i hook hused
      obtain ⟨found, hfound, hhandle⟩ := (Option.any_eq_true _ _).mp hmatch
      obtain rfl : found = hook := Option.some.inj (hfound.symm.trans hused)
      obtain rfl := Except.ok.inj h
      exact .inl ⟨index, found, beq_iff_eq.mp hhandle,
        { used := hused, hooks_eq := rfl, counts_eq := rfl }⟩
    · rename_i hnone
      simp [hnone] at hmatch
  · split_ifs at h
    obtain rfl := Except.ok.inj h
    exact .inr ⟨rfl, rfl⟩

/-- `cpueaxh_ensure_escape_capacity` changes the capacity at most. -/
theorem ensureEscapeCapacity_cases (table : HookTable) (required : ℕ) (allocated : Bool) :
    ∃ capacity, (cpueaxhEnsureEscapeCapacity table required allocated).2 =
      { table with escapeCapacity := capacity } := by
  unfold cpueaxhEnsureEscapeCapacity
  by_cases hroom : required ≤ table.escapeCapacity
  · rw [if_pos hroom]
    exact ⟨table.escapeCapacity, rfl⟩
  · rw [if_neg hroom]
    cases allocated
    · exact ⟨table.escapeCapacity, rfl⟩
    · exact ⟨_, rfl⟩

/-- **`cpueaxh_escape_add`** leaves the hooks alone. -/
theorem escapeAdd_sameHooks (table : HookTable) (id : U32) (callback : Option U64)
    (userData first last : U64) (allocated : Bool) :
    table.SameHooks (cpueaxhEscapeAdd table id callback userData first last allocated).2 := by
  unfold cpueaxhEscapeAdd
  split
  · exact HookTable.SameHooks.refl table
  · split_ifs
    · exact HookTable.SameHooks.refl table
    · exact HookTable.SameHooks.refl table
    · obtain ⟨capacity, hcapacity⟩ :=
        ensureEscapeCapacity_cases table (table.escapes.length + 1) allocated
      split
      rename_i error table' hensure
      rw [hensure] at hcapacity
      obtain rfl : table' = _ := hcapacity
      split_ifs <;> exact ⟨rfl, rfl⟩

/-- The type of the hook that a call may add. -/
def HookCall.addedType : HookCall → Option HookType
  | .hookAdd type _ _ _ _ => supportedHookType type
  | .hookAddAddress type _ _ _ => supportedHookType type
  | .hookDel _ => none
  | .escapeAdd _ _ _ _ _ _ => none

/-- **Inversion.**  A call adds a hook, removes one, or leaves the hooks alone. -/
theorem HookTable.edit_cases (table : HookTable) (call : HookCall) :
    (∃ index hook, table.Added (table.edit call) index hook ∧
        call.addedType = some hook.type) ∨
      (∃ index hook, table.Removed (table.edit call) index hook) ∨
      table.SameHooks (table.edit call) := by
  unfold edit answer
  cases call with
  | hookAdd type callback userData first last =>
    dsimp only
    split
    · rename_i hadd
      obtain ⟨index, type', callback', htype, -, -, -, hadded⟩ := hookAdd_ok hadd
      exact .inl ⟨index, _, hadded, htype⟩
    · exact .inr (.inr (SameHooks.refl table))
  | hookAddAddress type callback userData address =>
    dsimp only
    split
    · rename_i hadd
      obtain ⟨index, hook, hadded, htype, -, -⟩ := hookAddAddress_ok hadd
      exact .inl ⟨index, hook, hadded, htype⟩
    · exact .inr (.inr (SameHooks.refl table))
  | hookDel handle =>
    dsimp only
    split
    · rename_i hdel
      rcases hookDel_ok hdel with ⟨index, hook, -, hremoved⟩ | hsame
      · exact .inr (.inl ⟨index, hook, hremoved⟩)
      · exact .inr (.inr hsame)
    · exact .inr (.inr (SameHooks.refl table))
  | escapeAdd id callback userData first last allocated =>
    have hsame := escapeAdd_sameHooks table id callback userData first last allocated
    refine .inr (.inr ?_)
    dsimp only
    split <;> rename_i hadd <;> rwa [hadd] at hsame

/-! ## The counters -/

/-- The slots that hold a hook of a type. -/
def HookTable.ofType (table : HookTable) (type : HookType) : Finset HookSlot :=
  Finset.univ.filter fun index => (table.hooks index).any fun hook => hook.type = type

@[simp] theorem HookTable.mem_ofType {table : HookTable} {type : HookType} {index : HookSlot} :
    index ∈ table.ofType type ↔ ∃ hook, table.hooks index = some hook ∧ hook.type = type := by
  simp [ofType, Option.any_eq_true]

/-- The invariant of the table. -/
structure HookTable.Sound (table : HookTable) : Prop where
  counts_eq : ∀ type, (table.hookTypeCounts type).toNat = (table.ofType type).card
  armed : ∀ index hook, table.hooks index = some hook → hook.Armed

theorem HookTable.empty_sound : empty.Sound where
  counts_eq type := by
    have hnone : empty.ofType type = ∅ := by
      ext index
      simp [empty]
    rw [hnone]
    rfl
  armed index hook h := by simp [empty] at h

/-- There are no more hooks than slots. -/
theorem HookTable.card_ofType_le (table : HookTable) (type : HookType) :
    (table.ofType type).card ≤ cpueaxhMaxHooks :=
  (Finset.card_le_univ _).trans_eq (Fintype.card_fin _)

/-- The slots of a type behind a write to one slot. -/
theorem ofType_update {table table' : HookTable} {index : HookSlot} {slot : Option HookEntry}
    (h : table'.hooks = Function.update table.hooks index slot) (type : HookType) :
    table'.ofType type = if slot.any fun hook => hook.type = type then
      insert index (table.ofType type) else (table.ofType type).erase index := by
  ext i
  by_cases hi : i = index
  · subst hi
    have hslot : table'.hooks i = slot := by rw [h, Function.update_self]
    split_ifs with hany <;> simp_all [Option.any_eq_true]
  · have hslot : table'.hooks i = table.hooks i := by rw [h, Function.update_of_ne hi]
    split_ifs <;> simp [hslot, hi]

theorem HookTable.Added.sound {table table' : HookTable} {index : HookSlot} {hook : HookEntry}
    (h : table.Added table' index hook) (hs : table.Sound) : table'.Sound where
  counts_eq type := by
    have hfresh : index ∉ table.ofType type := by simp [h.free]
    have hroom := table'.card_ofType_le type
    rw [ofType_update h.hooks_eq] at hroom ⊢
    rw [h.counts_eq]
    by_cases htype : hook.type = type
    · subst htype
      simp only [Option.any_some, decide_true, if_true, Finset.card_insert_of_notMem hfresh,
        Function.update_self] at hroom ⊢
      have hcount := hs.counts_eq hook.type
      have hone : (1 : U16).toNat = 1 := rfl
      rw [BitVec.toNat_add, hcount, hone]
      exact Nat.mod_eq_of_lt (by simp only [cpueaxhMaxHooks] at hroom; omega)
    · rw [Function.update_of_ne (Ne.symm htype)]
      simpa [htype, Finset.erase_eq_of_notMem hfresh] using hs.counts_eq type
  armed i hook' hi := by
    rw [h.hooks_eq] at hi
    by_cases hindex : i = index
    · subst hindex
      rw [Function.update_self] at hi
      exact Option.some.inj hi ▸ h.armed
    · rw [Function.update_of_ne hindex] at hi
      exact hs.armed i hook' hi

theorem HookTable.Removed.sound {table table' : HookTable} {index : HookSlot}
    {hook : HookEntry} (h : table.Removed table' index hook) (hs : table.Sound) :
    table'.Sound where
  counts_eq type := by
    rw [ofType_update h.hooks_eq, h.counts_eq]
    by_cases htype : hook.type = type
    · subst htype
      have hmem : index ∈ table.ofType hook.type := mem_ofType.mpr ⟨hook, h.used, rfl⟩
      have hcount := hs.counts_eq hook.type
      have hpos := Finset.card_pos.mpr ⟨index, hmem⟩
      simp only [Option.any_none, Bool.false_eq_true, if_false, Finset.card_erase_of_mem hmem,
        Function.update_self]
      -- the counter of a table with a hook of the type is not zero
      split_ifs <;> bv_omega
    · have hother : index ∉ table.ofType type := by simp [h.used, htype]
      rw [Function.update_of_ne (Ne.symm htype)]
      simpa [Finset.erase_eq_of_notMem hother] using hs.counts_eq type
  armed i hook' hi := by
    rw [h.hooks_eq] at hi
    by_cases hindex : i = index
    · subst hindex
      simp at hi
    · rw [Function.update_of_ne hindex] at hi
      exact hs.armed i hook' hi

/-- Every call keeps the invariant. -/
theorem HookTable.Sound.edit {table : HookTable} (hs : table.Sound) (call : HookCall) :
    (table.edit call).Sound := by
  rcases table.edit_cases call with ⟨index, hook, h, -⟩ | ⟨index, hook, h⟩ | h
  · exact h.sound hs
  · exact h.sound hs
  · refine ⟨fun type => ?_, fun index hook hslot => hs.armed index hook (h.1 ▸ hslot)⟩
    have htype : (table.edit call).ofType type = table.ofType type := by
      ext index
      simp [h.1]
    rw [htype, h.2]
    exact hs.counts_eq type

/-- A call that adds no hook of the type leaves at most the hooks of the type. -/
theorem HookTable.ofType_edit_subset {type : HookType} {call : HookCall}
    (h : call.addedType ≠ some type) (table : HookTable) :
    (table.edit call).ofType type ⊆ table.ofType type := by
  rcases table.edit_cases call with ⟨index, hook, hadded, htype⟩ | ⟨index, hook, hremoved⟩ | hsame
  · have hother : hook.type ≠ type := fun heq => h (heq ▸ htype)
    rw [ofType_update hadded.hooks_eq]
    simpa [hother] using Finset.erase_subset _ _
  · rw [ofType_update hremoved.hooks_eq]
    simpa using Finset.erase_subset _ _
  · intro index hindex
    rw [mem_ofType] at hindex ⊢
    rwa [hsame.1] at hindex

/-- Every table that an engine can get is sound. -/
theorem sound_of_run (calls : List HookCall) : (run HookTable.edit .empty calls).Sound :=
  run_invariant_always HookTable.Sound (fun _ call hs => hs.edit call) calls _
    HookTable.empty_sound

/-- **`cpu_has_hook_type`** tells whether there is a hook of the type. -/
theorem HookTable.Sound.hasHookType_iff {table : HookTable} (hs : table.Sound)
    (type : HookType) :
    table.hookTypeCounts type ≠ 0 ↔
      ∃ index hook, table.hooks index = some hook ∧ hook.type = type := by
  have hzero : table.hookTypeCounts type = 0 ↔ (table.ofType type).card = 0 := by
    rw [← hs.counts_eq type]
    exact ⟨fun h => by rw [h]; rfl, fun h => BitVec.eq_of_toNat_eq h⟩
  rw [Ne, hzero, Finset.card_eq_zero, ← Ne, ← Finset.nonempty_iff_ne_empty]
  exact exists_congr fun index => mem_ofType

end Cpueaxh
