/-
# The table of escapes

What the host program may rely on when it adds and deletes escapes: one entry for an
instruction at most, the lookup finds the entry of an instruction, and a handle names one
hook or one escape.

The lookup goes through an index of one byte for each instruction, which is made anew behind
every change of the array.  An identifier that no instruction has passes the checks of
`cpueaxh_escape_add`, and its entry is never found; and the counter of the handles may come
round to a handle that is still in use.
-/
import Cpueaxh.HookTable

namespace Cpueaxh

open Transition

/-! ## The index -/

/-- The entry that the index leads to: the last of the first 255 for the instruction. -/
theorem escapeIndex_spec (escapes : List EscapeRecord) {id : U32}
    (hid : cpueaxhIsEscapeIndexValid id = true) :
    (escapeIndex escapes id = 0 ∧
        (escapes.take 255).reverse.find? (fun escape => escape.instructionId == id) = none) ∨
      ∃ i escape, i < 255 ∧ escapes[i]? = some escape ∧ escape.instructionId = id ∧
        escapeIndex escapes id = BitVec.ofNat 8 (i + 1) ∧
        (escapes.take 255).reverse.find? (fun escape => escape.instructionId == id) =
          some escape := by
  induction escapes using List.reverseRecOn with
  | nil => exact .inl ⟨rfl, rfl⟩
  | append_singleton escapes last ih =>
    have hindex : escapeIndex (escapes ++ [last]) =
        if cpueaxhIsEscapeIndexValid last.instructionId && decide (escapes.length < 0xFF) then
          Function.update (escapeIndex escapes) last.instructionId
            (BitVec.ofNat 8 (escapes.length + 1))
        else escapeIndex escapes := by
      simp only [escapeIndex, List.zipIdx_append, List.foldl_append, Nat.zero_add,
        List.zipIdx_singleton, List.foldl_cons, List.foldl_nil]
    have hkept : ∀ {i : ℕ} {escape : EscapeRecord}, escapes[i]? = some escape →
        (escapes ++ [last])[i]? = some escape := by
      intro i escape hi
      obtain ⟨hlt, -⟩ := List.getElem?_eq_some_iff.mp hi
      rwa [List.getElem?_append_left hlt]
    by_cases hroom : escapes.length < 255
    · have htake : ((escapes ++ [last]).take 255).reverse = last :: (escapes.take 255).reverse := by
        rw [List.take_of_length_le (by simp; omega), List.take_of_length_le (by omega)]
        simp
      rw [htake, List.find?_cons]
      by_cases hlast : last.instructionId = id
      · -- the new entry takes the place of an older one
        refine .inr ⟨escapes.length, last, hroom, by simp, hlast, ?_, by simp [hlast]⟩
        rw [hindex, hlast, hid]
        simp [hroom]
      · have hold : escapeIndex (escapes ++ [last]) id = escapeIndex escapes id := by
          rw [hindex]
          split_ifs
          · exact Function.update_of_ne (Ne.symm hlast) _ _
          · rfl
        rw [hold]
        simp only [beq_eq_false_iff_ne.mpr hlast]
        rcases ih with hnone | ⟨i, escape, hi, hget, hrest⟩
        · exact .inl hnone
        · exact .inr ⟨i, escape, hi, hkept hget, hrest⟩
    · -- the entry is behind the last that the index can name
      have htake : (escapes ++ [last]).take 255 = escapes.take 255 :=
        List.take_append_of_le_length (by omega)
      have hold : escapeIndex (escapes ++ [last]) = escapeIndex escapes := by
        rw [hindex]
        simp [hroom]
      rw [htake, hold]
      rcases ih with hnone | ⟨i, escape, hi, hget, hrest⟩
      · exact .inl hnone
      · exact .inr ⟨i, escape, hi, hkept hget, hrest⟩

/-- The index is the one of the entries. -/
def HookTable.Indexed (table : HookTable) : Prop :=
  table.escapeIndexById = escapeIndex table.escapes

/-- **The lookup** finds the last of the first 255 entries for an instruction. -/
theorem HookTable.Indexed.lookup_eq {table : HookTable} (h : table.Indexed) {id : U32}
    (hid : cpueaxhIsEscapeIndexValid id = true) :
    cpueaxhLookupEscapeEntry table id =
      (table.escapes.take 255).reverse.find? fun escape => escape.instructionId == id := by
  unfold cpueaxhLookupEscapeEntry
  rw [hid, h]
  rcases escapeIndex_spec table.escapes hid with
    ⟨hzero, hnone⟩ | ⟨i, escape, hi, hget, hescape, hindex, hfind⟩
  · simp [hzero, hnone]
  · have hvalue : (BitVec.ofNat 8 (i + 1)).toNat = i + 1 := by
      rw [BitVec.toNat_ofNat]
      exact Nat.mod_eq_of_lt (by omega)
    have hne : BitVec.ofNat 8 (i + 1) ≠ 0 := by
      intro hzero
      rw [hzero] at hvalue
      simp at hvalue
    rw [hfind, hindex]
    simpa [hvalue, hget, hescape] using hne

/-- An identifier of no instruction is not found. -/
theorem lookup_of_not_valid {table : HookTable} {id : U32}
    (hid : cpueaxhIsEscapeIndexValid id = false) : cpueaxhLookupEscapeEntry table id = none := by
  simp [cpueaxhLookupEscapeEntry, hid]

/-! ## What a call does to the handles -/

/-- A hook or an escape has the handle. -/
def HookTable.Live (table : HookTable) (handle : U64) : Prop :=
  (∃ index hook, table.hooks index = some hook ∧ hook.handle = handle) ∨
    ∃ escape, escape ∈ table.escapes ∧ escape.handle = handle

/-- The call passes the checks of its function and takes a handle. -/
def HookTable.Takes (table : HookTable) : HookCall → Prop
  | .hookAdd type callback _ _ _ =>
    callback.isSome ∧ (supportedHookType type).isSome ∧ ∃ index, table.hooks index = none
  | .hookAddAddress type callback _ _ =>
    callback.isSome ∧ (supportedHookType type).isSome ∧ ∃ index, table.hooks index = none
  | .hookDel _ => False
  | .escapeAdd id callback _ _ _ allocated =>
    callback.isSome ∧ id ≠ 0 ∧ cpueaxhLookupEscapeEntry table id = none ∧
      (table.escapes.length + 1 ≤ table.escapeCapacity ∨ allocated = true)

/-- The escapes, their index and their capacity are as before. -/
def HookTable.SameEscapes (table table' : HookTable) : Prop :=
  table'.escapes = table.escapes ∧ table'.escapeIndexById = table.escapeIndexById ∧
    table'.escapeCapacity = table.escapeCapacity

/-- A hook is added under the next handle, or the call is rejected. -/
theorem hookAdd_cases (table : HookTable) (type : U32) (callback : Option U64)
    (userData first last : U64) :
    (∃ table' index hook, cpueaxhHookAdd table type callback userData first last =
        .ok (table.nextHook, table') ∧ table.Added table' index hook ∧
        hook.handle = table.nextHook ∧ table.SameEscapes table' ∧
        table.Takes (.hookAdd type callback userData first last)) ∨
      ∃ error, error ≠ cpueaxhErrOk ∧
        cpueaxhHookAdd table type callback userData first last = .error error ∧
        ¬ table.Takes (.hookAdd type callback userData first last) := by
  unfold cpueaxhHookAdd
  cases callback with
  | none => exact .inr ⟨cpueaxhErrArg, by decide, rfl, fun h => absurd h.1 (by simp)⟩
  | some callback =>
    cases htype : supportedHookType type with
    | none => exact .inr ⟨cpueaxhErrHook, by decide, rfl, fun h => absurd h.2.1 (by simp [htype])⟩
    | some type' =>
      cases hslot : table.firstSlot fun slot => slot.isNone with
      | none =>
        refine .inr ⟨cpueaxhErrHook, by decide, rfl, ?_⟩
        rintro ⟨-, -, index, hfree⟩
        have hused := firstSlot_none hslot index
        simp [hfree] at hused
      | some index =>
        have hfree : table.hooks index = none :=
          Option.isNone_iff_eq_none.mp (firstSlot_some (p := fun slot => slot.isNone) hslot)
        exact .inl ⟨_, index, newHookEntry table.nextHook type' callback userData first last, rfl,
          { free := hfree
            armed := newHookEntry_armed _ _ _ _ _ _
            hooks_eq := rfl
            counts_eq := rfl },
          rfl, ⟨rfl, rfl, rfl⟩, rfl, by simp [htype], index, hfree⟩

/-- The table with another entry at the end of the array. -/
def HookTable.withEscape (table : HookTable) (escape : EscapeRecord) (capacity : ℕ) :
    HookTable :=
  cpueaxhRebuildEscapeIndex { table with
    escapes := table.escapes ++ [escape]
    nextHook := table.nextHook + 1
    escapeCapacity := capacity }

/-- The table without the first entry of a handle. -/
def HookTable.withoutEscape (table : HookTable) (handle : U64) : HookTable :=
  cpueaxhRebuildEscapeIndex
    { table with escapes := table.escapes.eraseP fun escape => escape.handle == handle }

theorem le_doubledCapacity {required : ℕ} :
    ∀ (left : ℕ) {capacity : ℕ}, 0 < capacity → required ≤ capacity + left →
      required ≤ doubledCapacity required left capacity
  | 0, capacity, _, h => by simpa [doubledCapacity] using h
  | left + 1, capacity, hpos, h => by
    rw [doubledCapacity]
    split_ifs with hless
    · exact le_doubledCapacity left (by omega) (by omega)
    · omega

/-- There is room for the entries behind `cpueaxh_ensure_escape_capacity`, or the call
fails. -/
theorem ensureEscapeCapacity_room (table : HookTable) (required : ℕ) (allocated : Bool) :
    (∃ capacity, required ≤ capacity ∧
        (required ≤ table.escapeCapacity ∨ allocated = true) ∧
        cpueaxhEnsureEscapeCapacity table required allocated =
          (cpueaxhErrOk, { table with escapeCapacity := capacity })) ∨
      (¬ (required ≤ table.escapeCapacity ∨ allocated = true) ∧
        cpueaxhEnsureEscapeCapacity table required allocated = (cpueaxhErrNomem, table)) := by
  unfold cpueaxhEnsureEscapeCapacity
  by_cases hroom : required ≤ table.escapeCapacity
  · exact .inl ⟨table.escapeCapacity, hroom, .inl hroom, by rw [if_pos hroom]⟩
  · rw [if_neg hroom]
    cases allocated with
    | false => exact .inr ⟨by simp [hroom], rfl⟩
    | true =>
      refine .inl ⟨_, ?_, .inr rfl, rfl⟩
      split_ifs with hzero
      · exact le_doubledCapacity required (by omega) (by omega)
      · exact le_doubledCapacity required (by omega) (by omega)

/-- An escape is added under the next handle, or the call is rejected and changes
nothing. -/
theorem escapeAdd_cases (table : HookTable) (id : U32) (callback : Option U64)
    (userData first last : U64) (allocated : Bool) :
    (∃ callback' capacity, callback = some callback' ∧ table.escapes.length + 1 ≤ capacity ∧
        table.Takes (.escapeAdd id callback userData first last allocated) ∧
        cpueaxhEscapeAdd table id callback userData first last allocated =
          (.ok table.nextHook,
            table.withEscape ⟨table.nextHook, callback', userData, first, last, id⟩ capacity)) ∨
      ∃ error, error ≠ cpueaxhErrOk ∧
        cpueaxhEscapeAdd table id callback userData first last allocated = (.error error, table) ∧
        ¬ table.Takes (.escapeAdd id callback userData first last allocated) := by
  unfold cpueaxhEscapeAdd
  cases callback with
  | none => exact .inr ⟨cpueaxhErrArg, by decide, rfl, fun h => absurd h.1 (by simp)⟩
  | some callback =>
    dsimp only
    by_cases hzero : id = 0
    · rw [if_pos hzero]
      exact .inr ⟨cpueaxhErrArg, by decide, rfl, fun h => h.2.1 hzero⟩
    rw [if_neg hzero]
    cases hfound : cpueaxhLookupEscapeEntry table id with
    | some escape =>
      exact .inr ⟨cpueaxhErrHook, by decide, rfl, fun h => absurd h.2.2.1 (by simp [hfound])⟩
    | none =>
      rcases ensureEscapeCapacity_room table (table.escapes.length + 1) allocated with
        ⟨capacity, hcapacity, hroom, hensure⟩ | ⟨hroom, hensure⟩
      · refine .inl ⟨callback, capacity, rfl, hcapacity, ⟨rfl, hzero, hfound, hroom⟩, ?_⟩
        rw [hensure]
        rfl
      · refine .inr ⟨cpueaxhErrNomem, by decide, ?_, fun h => hroom h.2.2.2⟩
        rw [hensure]
        rfl

/-- A hook is deleted, or the first escape of the handle, or the handle is of neither. -/
theorem hookDel_cases (table : HookTable) (handle : U64) :
    (∃ table' index hook, hook.handle = handle ∧ cpueaxhHookDel table handle = .ok table' ∧
        table.Removed table' index hook ∧ table.SameEscapes table') ∨
      (∃ escape, escape ∈ table.escapes ∧ escape.handle = handle ∧
        (∀ index hook, table.hooks index = some hook → hook.handle ≠ handle) ∧
        cpueaxhHookDel table handle = .ok (table.withoutEscape handle)) ∨
      (¬ table.Live handle ∧ cpueaxhHookDel table handle = .error cpueaxhErrHook) := by
  unfold cpueaxhHookDel
  cases hslot : table.firstSlot fun slot => slot.any fun hook => hook.handle == handle with
  | some index =>
    have hmatch := firstSlot_some (p := fun slot => slot.any fun hook => hook.handle == handle) hslot
    obtain ⟨hook, hused, hhandle⟩ := (Option.any_eq_true _ _).mp hmatch
    dsimp only
    rw [hused]
    exact .inl ⟨_, index, hook, beq_iff_eq.mp hhandle, rfl,
      { used := hused, hooks_eq := rfl, counts_eq := rfl }, rfl, rfl, rfl⟩
  | none =>
    have hother : ∀ index hook, table.hooks index = some hook → hook.handle ≠ handle := by
      intro index hook hused heq
      have hfalse := firstSlot_none hslot index
      simp [hused, heq] at hfalse
    dsimp only
    split_ifs with hany
    · obtain ⟨escape, hmem, hhandle⟩ := List.any_eq_true.mp hany
      exact .inr (.inl ⟨escape, hmem, beq_iff_eq.mp hhandle, hother, rfl⟩)
    · refine .inr (.inr ⟨?_, rfl⟩)
      rintro (⟨index, hook, hused, hhandle⟩ | ⟨escape, hmem, hhandle⟩)
      · exact hother index hook hused hhandle
      · exact hany (List.any_eq_true.mpr ⟨escape, hmem, beq_iff_eq.mpr hhandle⟩)

/-- The instruction of a new escape is one of the classes. -/
def HookCall.NamesClass : HookCall → Prop
  | .escapeAdd id _ _ _ _ _ => id ≤ cpueaxhEscapeInsnMax
  | _ => True

/-- A new hook has taken the next handle. -/
structure HookTable.HookTaken (table : HookTable) (call : HookCall) : Prop where
  takes : table.Takes call
  names : call.NamesClass
  added : ∃ index hook, table.Added (table.edit call) index hook ∧ hook.handle = table.nextHook
  same : table.SameEscapes (table.edit call)

/-- A new escape has taken the next handle. -/
structure HookTable.EscapeTaken (table : HookTable) (call : HookCall) (escape : EscapeRecord)
    (capacity : ℕ) : Prop where
  takes : table.Takes call
  room : table.escapes.length + 1 ≤ capacity
  handle : escape.handle = table.nextHook
  call_eq : ∃ allocated, call = .escapeAdd escape.instructionId (some escape.callback)
    escape.userData escape.first escape.last allocated
  table_eq : table.edit call = table.withEscape escape capacity

/-- A call without effect. -/
structure HookTable.Rejected (table : HookTable) (call : HookCall) : Prop where
  error : (table.answer call).1 ≠ cpueaxhErrOk
  not_takes : ¬ table.Takes call
  not_live : ∀ handle, call = .hookDel handle → ¬ table.Live handle
  table_eq : table.edit call = table

/-- **Inversion** of a call for the handles. -/
theorem HookTable.edit_turn (table : HookTable) (call : HookCall) :
    table.HookTaken call ∨ (∃ escape capacity, table.EscapeTaken call escape capacity) ∨
      (∃ index hook, call = .hookDel hook.handle ∧ table.Removed (table.edit call) index hook ∧
        table.SameEscapes (table.edit call)) ∨
      (∃ escape, escape ∈ table.escapes ∧ call = .hookDel escape.handle ∧
        (∀ index hook, table.hooks index = some hook → hook.handle ≠ escape.handle) ∧
        table.edit call = table.withoutEscape escape.handle) ∨
      table.Rejected call := by
  cases call with
  | hookAdd type callback userData first last =>
    rcases hookAdd_cases table type callback userData first last with
      ⟨table', index, hook, hadd, hadded, hhandle, hsame, htakes⟩ | ⟨error, hne, hadd, hnot⟩
    · have htable : table.edit (.hookAdd type callback userData first last) = table' := by
        simp [edit, answer, hadd]
      exact .inl ⟨htakes, trivial, htable ▸ ⟨index, hook, hadded, hhandle⟩, htable ▸ hsame⟩
    · exact .inr (.inr (.inr (.inr
        { error := by simpa [answer, hadd] using hne
          not_takes := hnot
          not_live := fun _ h => by cases h
          table_eq := by simp [edit, answer, hadd] })))
  | hookAddAddress type callback userData address =>
    rcases hookAdd_cases table type callback userData address address with
      ⟨table', index, hook, hadd, hadded, hhandle, hsame, htakes⟩ | ⟨error, hne, hadd, hnot⟩
    · have htable : table.edit (.hookAddAddress type callback userData address) = table' := by
        simp [edit, answer, cpueaxhHookAddAddress, hadd]
      exact .inl ⟨htakes, trivial, htable ▸ ⟨index, hook, hadded, hhandle⟩, htable ▸ hsame⟩
    · exact .inr (.inr (.inr (.inr
        { error := by simpa [answer, cpueaxhHookAddAddress, hadd] using hne
          not_takes := hnot
          not_live := fun _ h => by cases h
          table_eq := by simp [edit, answer, cpueaxhHookAddAddress, hadd] })))
  | hookDel handle =>
    rcases hookDel_cases table handle with ⟨table', index, hook, rfl, hdel, hremoved, hsame⟩ |
      ⟨escape, hmem, rfl, hother, hdel⟩ | ⟨hnot, hdel⟩
    · have htable : table.edit (.hookDel hook.handle) = table' := by simp [edit, answer, hdel]
      exact .inr (.inr (.inl ⟨index, hook, rfl, htable ▸ hremoved, htable ▸ hsame⟩))
    · exact .inr (.inr (.inr (.inl ⟨escape, hmem, rfl, hother, by simp [edit, answer, hdel]⟩)))
    · exact .inr (.inr (.inr (.inr
        { error := by simp [answer, hdel, cpueaxhErrHook, cpueaxhErrOk]
          not_takes := id
          not_live := fun _ h => HookCall.hookDel.inj h ▸ hnot
          table_eq := by simp [edit, answer, hdel] })))
  | escapeAdd id callback userData first last allocated =>
    rcases escapeAdd_cases table id callback userData first last allocated with
      ⟨callback', capacity, rfl, hroom, htakes, hadd⟩ | ⟨error, hne, hadd, hnot⟩
    · exact .inr (.inl ⟨⟨table.nextHook, callback', userData, first, last, id⟩, capacity,
        { takes := htakes
          room := hroom
          handle := rfl
          call_eq := ⟨allocated, rfl⟩
          table_eq := by simp [edit, answer, hadd] }⟩)
    · exact .inr (.inr (.inr (.inr
        { error := by simpa [answer, hadd] using hne
          not_takes := hnot
          not_live := fun _ h => by cases h
          table_eq := by simp [edit, answer, hadd] })))

/-! ## The law -/

/-- What holds of every table: the counters and the index are right, and the entries fit
into the array. -/
structure HookTable.Consistent (table : HookTable) : Prop where
  sound : table.Sound
  indexed : table.Indexed
  room : table.escapes.length ≤ table.escapeCapacity

/-- The law of a table: each instruction has one entry at most and the lookup finds it, a
handle is of one hook or one escape, and the counters count the hooks. -/
structure HookTable.EscapeLaw (table : HookTable) : Prop where
  oneEach : (table.escapes.map EscapeRecord.instructionId).Nodup
  found : ∀ id escape, cpueaxhLookupEscapeEntry table id = some escape ↔
    escape ∈ table.escapes ∧ escape.instructionId = id
  hookHandles : ∀ i j hook hook', table.hooks i = some hook → table.hooks j = some hook' →
    hook.handle = hook'.handle → i = j
  escapeHandles : (table.escapes.map EscapeRecord.handle).Nodup
  apart : ∀ index hook, table.hooks index = some hook → ∀ escape ∈ table.escapes,
    hook.handle ≠ escape.handle
  counts : ∀ type, (table.hookTypeCounts type).toNat = (table.ofType type).card

theorem HookTable.empty_consistent : empty.Consistent := ⟨empty_sound, rfl, le_rfl⟩

theorem HookTable.empty_escapeLaw : empty.EscapeLaw where
  oneEach := List.nodup_nil
  found id escape := by
    simp [cpueaxhLookupEscapeEntry, empty]
  hookHandles i j hook hook' h := by simp [empty] at h
  escapeHandles := List.nodup_nil
  apart index hook h := by simp [empty] at h
  counts := empty_sound.counts_eq

variable {table : HookTable} {call : HookCall}

/-- Every call keeps the table consistent. -/
theorem HookTable.Consistent.edit (h : table.Consistent) (call : HookCall) :
    (table.edit call).Consistent := by
  refine ⟨h.sound.edit call, ?_, ?_⟩
  · rcases table.edit_turn call with hhook | ⟨escape, capacity, hescape⟩ |
      ⟨index, hook, -, -, hsame⟩ | ⟨escape, -, -, -, htable⟩ | hrejected
    · rw [Indexed, hhook.same.1, hhook.same.2.1]
      exact h.indexed
    · rw [hescape.table_eq]
      rfl
    · rw [Indexed, hsame.1, hsame.2.1]
      exact h.indexed
    · rw [htable]
      rfl
    · rw [hrejected.table_eq]
      exact h.indexed
  · rcases table.edit_turn call with hhook | ⟨escape, capacity, hescape⟩ |
      ⟨index, hook, -, -, hsame⟩ | ⟨escape, -, -, -, htable⟩ | hrejected
    · rw [hhook.same.1, hhook.same.2.2]
      exact h.room
    · rw [hescape.table_eq]
      simpa [withEscape, cpueaxhRebuildEscapeIndex] using hescape.room
    · rw [hsame.1, hsame.2.2]
      exact h.room
    · rw [htable]
      exact (List.length_eraseP_le).trans h.room
    · rw [hrejected.table_eq]
      exact h.room

/-- There are fewer valid identifiers than the index can name. -/
theorem length_le_of_valid {escapes : List EscapeRecord}
    (hnodup : (escapes.map EscapeRecord.instructionId).Nodup)
    (hvalid : ∀ escape ∈ escapes, cpueaxhIsEscapeIndexValid escape.instructionId = true) :
    escapes.length ≤ 255 := by
  have hsub : (escapes.map EscapeRecord.instructionId).toFinset ⊆
      (Finset.range 20).image fun n => BitVec.ofNat 32 n := by
    intro id hid
    obtain ⟨escape, hmem, rfl⟩ := List.mem_map.mp (List.mem_toFinset.mp hid)
    have hlt := hvalid escape hmem
    simp only [cpueaxhIsEscapeIndexValid, Bool.and_eq_true, decide_eq_true_eq] at hlt
    refine Finset.mem_image.mpr ⟨escape.instructionId.toNat, ?_, by simp⟩
    have hle : escape.instructionId.toNat ≤ 19 := hlt.2
    exact Finset.mem_range.mpr (by omega)
  have hcard := (Finset.card_le_card hsub).trans Finset.card_image_le
  rw [List.toFinset_card_of_nodup hnodup, List.length_map, Finset.card_range] at hcard
  omega

/-- The lookup in a table that has one entry for each of its instructions. -/
theorem HookTable.Indexed.found (h : table.Indexed)
    (hnodup : (table.escapes.map EscapeRecord.instructionId).Nodup)
    (hvalid : ∀ escape ∈ table.escapes, cpueaxhIsEscapeIndexValid escape.instructionId = true)
    (id : U32) (escape : EscapeRecord) :
    cpueaxhLookupEscapeEntry table id = some escape ↔
      escape ∈ table.escapes ∧ escape.instructionId = id := by
  cases hid : cpueaxhIsEscapeIndexValid id with
  | false =>
    rw [lookup_of_not_valid hid]
    refine ⟨fun hnone => absurd hnone (by simp), ?_⟩
    rintro ⟨hmem, rfl⟩
    rw [hvalid escape hmem] at hid
    cases hid
  | true =>
    rw [h.lookup_eq hid, List.take_of_length_le (length_le_of_valid hnodup hvalid)]
    constructor
    · intro hfind
      exact ⟨List.mem_reverse.mp (List.mem_of_find?_eq_some hfind),
        beq_iff_eq.mp
          (List.find?_some (p := fun escape : EscapeRecord => escape.instructionId == id) hfind)⟩
    · rintro ⟨hmem, rfl⟩
      cases hfind : table.escapes.reverse.find?
          fun other => other.instructionId == escape.instructionId with
      | none =>
        have hne := List.find?_eq_none.mp hfind escape (List.mem_reverse.mpr hmem)
        simp at hne
      | some other =>
        -- two entries of one instruction are the same entry
        have hmem' := List.mem_reverse.mp (List.mem_of_find?_eq_some hfind)
        have heq := beq_iff_eq.mp
          (List.find?_some (p := fun other : EscapeRecord =>
            other.instructionId == escape.instructionId) hfind)
        rw [List.inj_on_of_nodup_map hnodup hmem' hmem heq]

theorem HookTable.EscapeLaw.valid (h : table.EscapeLaw) {escape : EscapeRecord}
    (hmem : escape ∈ table.escapes) : cpueaxhIsEscapeIndexValid escape.instructionId = true := by
  by_contra hid
  have hfound := (h.found escape.instructionId escape).mpr ⟨hmem, rfl⟩
  rw [lookup_of_not_valid (Bool.not_eq_true _ ▸ hid)] at hfound
  cases hfound

/-- The handle of a call that takes one is new, and the call names a class. -/
def HookTable.TakesWell (table : HookTable) (call : HookCall) : Prop :=
  table.Takes call → call.NamesClass ∧ ¬ table.Live table.nextHook

theorem HookTable.EscapeLaw.added_hook (h : table.EscapeLaw) (hgood : table.Consistent)
    (htaken : table.HookTaken call) (hnew : ¬ table.Live table.nextHook) :
    (table.edit call).EscapeLaw := by
  obtain ⟨index, hook, hadded, hhandle⟩ := htaken.added
  have hslots : ∀ i other, (table.edit call).hooks i = some other →
      (i = index ∧ other = hook) ∨ (i ≠ index ∧ table.hooks i = some other) := by
    intro i other hi
    rw [hadded.hooks_eq] at hi
    by_cases hindex : i = index
    · subst hindex
      rw [Function.update_self] at hi
      exact .inl ⟨rfl, (Option.some.inj hi).symm⟩
    · rw [Function.update_of_ne hindex] at hi
      exact .inr ⟨hindex, hi⟩
  refine ⟨?_, ?_, ?_, ?_, ?_, (hgood.sound.edit call).counts_eq⟩
  · rw [htaken.same.1]
    exact h.oneEach
  · intro id escape
    have hlookup : cpueaxhLookupEscapeEntry (table.edit call) id =
        cpueaxhLookupEscapeEntry table id := by
      simp only [cpueaxhLookupEscapeEntry, htaken.same.1, htaken.same.2.1]
    rw [hlookup, htaken.same.1]
    exact h.found id escape
  · intro i j first second hi hj heq
    rcases hslots i first hi with ⟨rfl, rfl⟩ | ⟨-, hi⟩ <;>
      rcases hslots j second hj with ⟨rfl, rfl⟩ | ⟨-, hj⟩
    · rfl
    · exact absurd (.inl ⟨j, second, hj, heq ▸ hhandle⟩) hnew
    · exact absurd (.inl ⟨i, first, hi, heq.trans hhandle⟩) hnew
    · exact h.hookHandles i j first second hi hj heq
  · rw [htaken.same.1]
    exact h.escapeHandles
  · intro i other hi escape hmem heq
    rw [htaken.same.1] at hmem
    rcases hslots i other hi with ⟨rfl, rfl⟩ | ⟨-, hi⟩
    · exact hnew (.inr ⟨escape, hmem, heq ▸ hhandle⟩)
    · exact h.apart i other hi escape hmem heq

theorem HookTable.EscapeLaw.added_escape (h : table.EscapeLaw) (hgood : table.Consistent)
    {escape : EscapeRecord} {capacity : ℕ} (htaken : table.EscapeTaken call escape capacity)
    (hknown : call.NamesClass) (hnew : ¬ table.Live table.nextHook) :
    (table.edit call).EscapeLaw := by
  obtain ⟨allocated, hcall⟩ := htaken.call_eq
  have htakes := htaken.takes
  rw [hcall] at htakes hknown
  have hvalid : cpueaxhIsEscapeIndexValid escape.instructionId = true := by
    have hpos : 0 < escape.instructionId := by
      have hzero := htakes.2.1
      bv_omega
    have hle : escape.instructionId ≤ cpueaxhEscapeInsnMax := hknown
    rw [cpueaxhIsEscapeIndexValid, Bool.and_eq_true]
    exact ⟨decide_eq_true hpos, decide_eq_true hle⟩
  have hfresh : ∀ other ∈ table.escapes, other.instructionId ≠ escape.instructionId := by
    intro other hmem heq
    have hfound := (h.found escape.instructionId other).mpr ⟨hmem, heq⟩
    rw [htakes.2.2.1] at hfound
    cases hfound
  have hescapes : (table.edit call).escapes = table.escapes ++ [escape] := by
    rw [htaken.table_eq]
    rfl
  have hhooks : (table.edit call).hooks = table.hooks := by
    rw [htaken.table_eq]
    rfl
  have honeEach : ((table.edit call).escapes.map EscapeRecord.instructionId).Nodup := by
    rw [hescapes, List.map_append, List.nodup_append]
    refine ⟨h.oneEach, by simp, ?_⟩
    intro id hid other hother
    obtain ⟨entry, hmem, rfl⟩ := List.mem_map.mp hid
    rw [List.map_singleton, List.mem_singleton] at hother
    rw [hother]
    exact hfresh entry hmem
  refine ⟨honeEach, ?_, ?_, ?_, ?_, (hgood.sound.edit call).counts_eq⟩
  · refine (hgood.edit call).indexed.found honeEach fun other hmem => ?_
    rw [hescapes, List.mem_append, List.mem_singleton] at hmem
    rcases hmem with hmem | rfl
    · exact h.valid hmem
    · exact hvalid
  · rw [hhooks]
    exact h.hookHandles
  · rw [hescapes, List.map_append, List.nodup_append]
    refine ⟨h.escapeHandles, by simp, ?_⟩
    intro handle hhandle other hother
    obtain ⟨entry, hmem, rfl⟩ := List.mem_map.mp hhandle
    rw [List.map_singleton, List.mem_singleton] at hother
    intro heq
    exact hnew (.inr ⟨entry, hmem, (heq.trans hother).trans htaken.handle⟩)
  · rw [hescapes, hhooks]
    intro index hook hslot other hmem heq
    rw [List.mem_append, List.mem_singleton] at hmem
    rcases hmem with hmem | rfl
    · exact h.apart index hook hslot other hmem heq
    · exact hnew (.inl ⟨index, hook, hslot, heq.trans htaken.handle⟩)

theorem HookTable.EscapeLaw.removed_hook (h : table.EscapeLaw) (hgood : table.Consistent)
    {index : HookSlot} {hook : HookEntry} (hremoved : table.Removed (table.edit call) index hook)
    (hsame : table.SameEscapes (table.edit call)) : (table.edit call).EscapeLaw := by
  have hslots : ∀ i other, (table.edit call).hooks i = some other → table.hooks i = some other := by
    intro i other hi
    rw [hremoved.hooks_eq] at hi
    by_cases hindex : i = index
    · subst hindex
      simp at hi
    · rwa [Function.update_of_ne hindex] at hi
  refine ⟨?_, ?_, ?_, ?_, ?_, (hgood.sound.edit call).counts_eq⟩
  · rw [hsame.1]
    exact h.oneEach
  · intro id escape
    have hlookup : cpueaxhLookupEscapeEntry (table.edit call) id =
        cpueaxhLookupEscapeEntry table id := by
      simp only [cpueaxhLookupEscapeEntry, hsame.1, hsame.2.1]
    rw [hlookup, hsame.1]
    exact h.found id escape
  · intro i j first second hi hj
    exact h.hookHandles i j first second (hslots i first hi) (hslots j second hj)
  · rw [hsame.1]
    exact h.escapeHandles
  · rw [hsame.1]
    exact fun i other hi => h.apart i other (hslots i other hi)

theorem HookTable.EscapeLaw.removed_escape (h : table.EscapeLaw) (hgood : table.Consistent)
    {handle : U64} (htable : table.edit call = table.withoutEscape handle) :
    (table.edit call).EscapeLaw := by
  have hsub : (table.edit call).escapes.Sublist table.escapes := by
    rw [htable]
    exact List.eraseP_sublist
  have hhooks : (table.edit call).hooks = table.hooks := by
    rw [htable]
    rfl
  have honeEach := h.oneEach.sublist (hsub.map EscapeRecord.instructionId)
  refine ⟨honeEach, ?_, ?_, ?_, ?_, (hgood.sound.edit call).counts_eq⟩
  · exact (hgood.edit call).indexed.found honeEach fun other hmem => h.valid (hsub.subset hmem)
  · rw [hhooks]
    exact h.hookHandles
  · exact h.escapeHandles.sublist (hsub.map EscapeRecord.handle)
  · rw [hhooks]
    exact fun index hook hslot escape hmem => h.apart index hook hslot escape (hsub.subset hmem)

/-- A call that takes the handle of a live entry, or names no class, breaks the law. -/
theorem HookTable.EscapeLaw.takesWell (h : (table.edit call).EscapeLaw) :
    table.TakesWell call := by
  intro htakes
  rcases table.edit_turn call with hhook | ⟨escape, capacity, hescape⟩ |
    ⟨index, hook, rfl, -, -⟩ | ⟨escape, -, rfl, -, -⟩ | hrejected
  · refine ⟨hhook.names, ?_⟩
    obtain ⟨index, hook, hadded, hhandle⟩ := hhook.added
    have hself : (table.edit call).hooks index = some hook := by
      rw [hadded.hooks_eq, Function.update_self]
    rintro (⟨i, other, hother, heq⟩ | ⟨escape, hmem, heq⟩)
    · have hne : i ≠ index := by
        rintro rfl
        rw [hadded.free] at hother
        cases hother
      have hother' : (table.edit call).hooks i = some other := by
        rw [hadded.hooks_eq, Function.update_of_ne hne]
        exact hother
      exact hne (h.hookHandles i index other hook hother' hself (heq.trans hhandle.symm))
    · exact h.apart index hook hself escape (hhook.same.1.symm ▸ hmem) (hhandle.trans heq.symm)
  · obtain ⟨allocated, hcall⟩ := hescape.call_eq
    have hescapes : (table.edit call).escapes = table.escapes ++ [escape] := by
      rw [hescape.table_eq]
      rfl
    have hlast : escape ∈ (table.edit call).escapes := by simp [hescapes]
    constructor
    · have hvalid := h.valid hlast
      simp only [cpueaxhIsEscapeIndexValid, Bool.and_eq_true, decide_eq_true_eq] at hvalid
      rw [hcall]
      exact hvalid.2
    · rintro (⟨i, other, hother, heq⟩ | ⟨other, hmem, heq⟩)
      · have hhooks : (table.edit call).hooks = table.hooks := by
          rw [hescape.table_eq]
          rfl
        exact h.apart i other (hhooks ▸ hother) escape hlast (heq.trans hescape.handle.symm)
      · have hnodup := h.escapeHandles
        rw [hescapes, List.map_append, List.nodup_append] at hnodup
        exact hnodup.2.2 other.handle (List.mem_map_of_mem hmem) escape.handle (by simp)
          (heq.trans hescape.handle.symm)
  · exact htakes.elim
  · exact htakes.elim
  · exact absurd htakes hrejected.not_takes

/-- **One call.**  A call keeps the law exactly if what it takes, it takes well. -/
theorem HookTable.EscapeLaw.edit_iff (h : table.EscapeLaw) (hgood : table.Consistent) :
    (table.edit call).EscapeLaw ↔ table.TakesWell call := by
  refine ⟨EscapeLaw.takesWell, fun hwell => ?_⟩
  rcases table.edit_turn call with hhook | ⟨escape, capacity, hescape⟩ |
    ⟨index, hook, -, hremoved, hsame⟩ | ⟨escape, -, -, -, htable⟩ | hrejected
  · exact h.added_hook hgood hhook (hwell hhook.takes).2
  · exact h.added_escape hgood hescape (hwell hescape.takes).1 (hwell hescape.takes).2
  · exact h.removed_hook hgood hremoved hsame
  · exact h.removed_escape hgood htable
  · rw [hrejected.table_eq]
    exact h

/-! ## What stays and what goes -/

/-- An entry stays in the array until its handle is deleted. -/
theorem HookTable.escape_kept {escape : EscapeRecord} (hmem : escape ∈ table.escapes)
    (hcall : call ≠ .hookDel escape.handle) : escape ∈ (table.edit call).escapes := by
  rcases table.edit_turn call with hhook | ⟨added, capacity, hadded⟩ |
    ⟨index, hook, -, -, hsame⟩ | ⟨other, -, rfl, -, htable⟩ | hrejected
  · rwa [hhook.same.1]
  · rw [hadded.table_eq]
    exact List.mem_append_left _ hmem
  · rwa [hsame.1]
  · rw [htable]
    have hother : ¬ (escape.handle == other.handle) = true := by
      rw [beq_iff_eq]
      exact fun heq => hcall (heq ▸ rfl)
    exact (List.mem_eraseP_of_neg
      (p := fun entry : EscapeRecord => entry.handle == other.handle) hother).mpr hmem
  · rwa [hrejected.table_eq]

theorem HookTable.escape_kept_run {escape : EscapeRecord} (rest : List HookCall) :
    ∀ {table : HookTable}, escape ∈ table.escapes → .hookDel escape.handle ∉ rest →
      escape ∈ (run HookTable.edit table rest).escapes := by
  induction rest with
  | nil => exact fun hmem _ => hmem
  | cons call rest ih =>
    intro table hmem hrest
    rw [List.mem_cons, not_or] at hrest
    exact ih (escape_kept hmem (Ne.symm hrest.1)) hrest.2

/-- The first entry of a handle is its only one. -/
theorem eraseP_handle (handle : U64) :
    ∀ {escapes : List EscapeRecord}, (escapes.map EscapeRecord.handle).Nodup →
      escapes.eraseP (fun escape => escape.handle == handle) =
        escapes.filter fun escape => escape.handle != handle
  | [], _ => rfl
  | escape :: escapes, hnodup => by
    rw [List.map_cons, List.nodup_cons] at hnodup
    by_cases hhandle : escape.handle = handle
    · have hrest : escapes.filter (fun other => other.handle != handle) = escapes := by
        refine List.filter_eq_self.mpr fun other hmem => ?_
        rw [bne_iff_ne]
        rintro rfl
        exact hnodup.1 (hhandle ▸ List.mem_map_of_mem hmem)
      simp [hhandle, hrest]
    · simp [hhandle, eraseP_handle handle hnodup.2]

/-- **A deletion** removes the hook or the escape of the handle, and nothing else. -/
theorem HookTable.EscapeLaw.deleted (h : table.EscapeLaw) (handle : U64) :
    (table.edit (.hookDel handle)).escapes =
        table.escapes.filter (fun escape => escape.handle != handle) ∧
      ∀ index, (table.edit (.hookDel handle)).hooks index =
        (table.hooks index).filter fun hook => hook.handle != handle := by
  have hall : ∀ {escapes : List EscapeRecord}, (∀ escape ∈ escapes, escape.handle ≠ handle) →
      escapes.filter (fun escape => escape.handle != handle) = escapes :=
    fun hne => List.filter_eq_self.mpr fun escape hmem => bne_iff_ne.mpr (hne escape hmem)
  have hslot : ∀ {slot : Option HookEntry}, (∀ hook, slot = some hook → hook.handle ≠ handle) →
      slot.filter (fun hook => hook.handle != handle) = slot := by
    intro slot hne
    cases slot with
    | none => rfl
    | some hook => simp [hne hook rfl]
  rcases table.edit_turn (.hookDel handle) with hhook | ⟨added, capacity, hadded⟩ |
    ⟨index, hook, hcall, hremoved, hsame⟩ | ⟨escape, hmem, hcall, hother, htable⟩ | hrejected
  · exact hhook.takes.elim
  · exact hadded.takes.elim
  · obtain rfl := HookCall.hookDel.inj hcall
    refine ⟨?_, fun i => ?_⟩
    · rw [hsame.1]
      exact (hall fun escape hmem => Ne.symm (h.apart index hook hremoved.used escape hmem)).symm
    · rw [hremoved.hooks_eq]
      by_cases hi : i = index
      · subst hi
        rw [Function.update_self, hremoved.used]
        simp [Option.filter]
      · rw [Function.update_of_ne hi]
        refine (hslot fun other hused heq => hi ?_).symm
        exact h.hookHandles i index other hook hused hremoved.used heq
  · obtain rfl := HookCall.hookDel.inj hcall
    rw [htable]
    exact ⟨eraseP_handle _ h.escapeHandles, fun i => (hslot (hother i)).symm⟩
  · have hlive := hrejected.not_live handle rfl
    rw [hrejected.table_eq]
    exact ⟨(hall fun escape hmem heq => hlive (.inr ⟨escape, hmem, heq⟩)).symm, fun i =>
      (hslot fun hook hused heq => hlive (.inl ⟨i, hook, hused, heq⟩)).symm⟩

/-! ## Runs -/

/-- The table that an engine has after some calls. -/
def HookTable.after (calls : List HookCall) : HookTable := run HookTable.edit .empty calls

/-- What holds of the table during a run of calls. -/
structure EscapeTableLaw (calls : List HookCall) : Prop where
  state : ∀ past, past <+: calls → (HookTable.after past).EscapeLaw
  found : ∀ past id callback userData first last allocated handle rest,
    past ++ .escapeAdd id (some callback) userData first last allocated :: rest <+: calls →
    (cpueaxhEscapeAdd (.after past) id (some callback) userData first last allocated).1 =
      .ok handle →
    .hookDel handle ∉ rest →
    cpueaxhLookupEscapeEntry
        (.after (past ++ .escapeAdd id (some callback) userData first last allocated :: rest)) id =
      some ⟨handle, callback, userData, first, last, id⟩
  rejected : ∀ past call, past ++ [call] <+: calls →
    ((HookTable.after past).answer call).1 ≠ cpueaxhErrOk →
    HookTable.after (past ++ [call]) = HookTable.after past
  deleted : ∀ past handle, past ++ [.hookDel handle] <+: calls →
    (HookTable.after (past ++ [.hookDel handle])).escapes =
        (HookTable.after past).escapes.filter (fun escape => escape.handle != handle) ∧
      ∀ index, (HookTable.after (past ++ [.hookDel handle])).hooks index =
        ((HookTable.after past).hooks index).filter fun hook => hook.handle != handle

theorem HookTable.after_append (past rest : List HookCall) :
    after (past ++ rest) = run HookTable.edit (after past) rest := run_append _ _ _

/-- A call with an error leaves the table alone. -/
theorem HookTable.edit_of_error (h : (table.answer call).1 ≠ cpueaxhErrOk) :
    table.edit call = table := by
  unfold HookTable.answer at h
  unfold HookTable.edit HookTable.answer
  cases call with
  | hookAdd type callback userData first last =>
    dsimp only at h ⊢
    split at h
    · exact absurd rfl h
    · rfl
  | hookAddAddress type callback userData address =>
    dsimp only at h ⊢
    split at h
    · exact absurd rfl h
    · rfl
  | hookDel handle =>
    dsimp only at h ⊢
    split at h
    · exact absurd rfl h
    · rfl
  | escapeAdd id callback userData first last allocated =>
    rcases escapeAdd_cases table id callback userData first last allocated with
      ⟨callback', capacity, -, -, -, hadd⟩ | ⟨error, -, hadd, -⟩
    · exact absurd (by simp [hadd]) h
    · simp [hadd]

/-- **The table of escapes.**  A run obeys the law exactly if every call in it that takes
a handle takes a new one, and every escape that it adds is for one of the classes. -/
theorem escape_table_law (calls : List HookCall) :
    EscapeTableLaw calls ↔ Along HookTable.edit HookTable.TakesWell .empty calls := by
  have hstates : (∀ past, past <+: calls → (HookTable.after past).EscapeLaw) ↔
      Along HookTable.edit HookTable.TakesWell .empty calls :=
    forall_prefix_iff_along_of HookTable.Consistent HookTable.EscapeLaw
      (fun _ call hgood => hgood.edit call) (fun _ _ hgood hlaw => hlaw.edit_iff hgood) .empty
      HookTable.empty_consistent HookTable.empty_escapeLaw calls
  refine ⟨fun h => hstates.mp h.state, fun h => ?_⟩
  have hstate := hstates.mpr h
  refine ⟨hstate, ?_, ?_, ?_⟩
  · intro past id callback userData first last allocated handle rest hprefix hadd hrest
    refine ((hstate _ hprefix).found id _).mpr ⟨?_, rfl⟩
    rw [HookTable.after_append, run_cons]
    refine HookTable.escape_kept_run rest ?_ hrest
    rcases escapeAdd_cases (.after past) id (some callback) userData first last allocated with
      ⟨callback', capacity, hcallback, -, -, htable⟩ | ⟨error, -, htable, -⟩
    · rw [htable] at hadd
      obtain rfl := Except.ok.inj hadd
      obtain rfl := Option.some.inj hcallback
      simp [HookTable.edit, HookTable.answer, htable, HookTable.withEscape,
        cpueaxhRebuildEscapeIndex]
    · rw [htable] at hadd
      cases hadd
  · intro past call _ herror
    rw [HookTable.after_append]
    exact HookTable.edit_of_error herror
  · intro past handle hprefix
    rw [HookTable.after_append]
    exact (hstate past ((List.prefix_append _ _).trans hprefix)).deleted handle

/-- An escape for an identifier of no instruction. -/
theorem escape_of_no_class_not_found :
    ¬ ∀ calls, EscapeTableLaw calls := by
  intro hall
  have hfound := (hall [.escapeAdd 20 (some 0x1000) 0 0 0 true]).found [] 20 0x1000 0 0 0 true 1 []
    List.prefix_rfl rfl (by simp)
  exact absurd hfound (by decide)

end Cpueaxh
