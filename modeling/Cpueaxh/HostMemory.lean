/-
# The memory of the host process

The manager keeps guest bytes in host memory.  A host pointer is either an address
of memory that belongs to the caller, or a position in a block that the manager
allocated itself.  Blocks have an identity, so a block that was freed is never
confused with a later one: reading through a stale pointer yields nothing.

`CPUEAXH_ALLOC_ZEROED` may fail at any call.  The outcome of the `n`-th request is
the `n`-th entry of a schedule which the model leaves arbitrary.
-/
import Mathlib.Data.BitVec
import Mathlib.Logic.Function.Basic

namespace Cpueaxh

abbrev U8 := BitVec 8
abbrev U16 := BitVec 16
abbrev U32 := BitVec 32
abbrev U64 := BitVec 64

/-- A file of sixteen registers has a first one. -/
instance neZero_sixteen : NeZero 16 := ⟨by decide⟩

/-! ## Pointers and blocks -/

/-- A `uint8_t*`: an address in the caller's memory, or an offset in a block. -/
inductive HostPtr where
  | user (address : U64)
  | heap (block : ℕ) (offset : U64)
  deriving DecidableEq, Repr

/-- The `NULL` pointer. -/
def HostPtr.null : HostPtr := .user 0

/-- Pointer arithmetic, which stays in the block of the pointer. -/
def HostPtr.add : HostPtr → U64 → HostPtr
  | .user address, n => .user (address + n)
  | .heap block offset, n => .heap block (offset + n)

@[simp] theorem HostPtr.add_zero (p : HostPtr) : p.add 0 = p := by
  cases p <;> simp [HostPtr.add]

theorem HostPtr.add_add (p : HostPtr) (m n : U64) : (p.add m).add n = p.add (m + n) := by
  cases p <;> simp [HostPtr.add, BitVec.add_assoc]

/-- An allocated block. -/
structure HeapBlock where
  size : U64
  bytes : U64 → U8

/-- The host memory: the live blocks, the caller's bytes, and the allocator. -/
structure HostMemory where
  blocks : ℕ → Option HeapBlock
  nextBlock : ℕ
  user : U64 → U8
  requests : ℕ
  grants : ℕ → Bool

namespace HostMemory

/-- A host memory in which nothing was allocated, with a schedule of grants. -/
def initial (user : U64 → U8) (grants : ℕ → Bool) : HostMemory :=
  { blocks := fun _ => none, nextBlock := 0, user := user, requests := 0, grants := grants }

/-- The byte behind a pointer; none behind a stale or out-of-bounds one. -/
def read (host : HostMemory) : HostPtr → Option U8
  | .user address => some (host.user address)
  | .heap block offset =>
    match host.blocks block with
    | some b => if offset < b.size then some (b.bytes offset) else none
    | none => none

/-- Store one byte through a pointer. -/
def write (host : HostMemory) (p : HostPtr) (value : U8) : HostMemory :=
  match p with
  | .user address => { host with user := Function.update host.user address value }
  | .heap block offset =>
    match host.blocks block with
    | some b =>
      { host with
        blocks := Function.update host.blocks block
          (some { b with bytes := Function.update b.bytes offset value }) }
    | none => host

/-- One request to the allocator: whether it is granted, and the next state. -/
def request (host : HostMemory) : Bool × HostMemory :=
  (host.grants host.requests, { host with requests := host.requests + 1 })

/-- `CPUEAXH_ALLOC_ZEROED(size)` for a data block; `none` is a `NULL` result. -/
def allocZeroed (host : HostMemory) (size : U64) : Option HostPtr × HostMemory :=
  if host.request.1 then
    (some (.heap host.nextBlock 0),
      { host.request.2 with
        blocks := Function.update host.blocks host.nextBlock
          (some { size := size, bytes := fun _ => 0 })
        nextBlock := host.nextBlock + 1 })
  else (none, host.request.2)

/-- `CPUEAXH_MEMCPY(target, source, size)`. -/
def copy (host : HostMemory) (target source : HostPtr) (size : U64) : HostMemory :=
  match target with
  | .user address =>
    { host with
      user := fun a => if a - address < size then (host.read (source.add (a - address))).getD 0
        else host.user a }
  | .heap block offset =>
    match host.blocks block with
    | some b =>
      { host with
        blocks := Function.update host.blocks block
          (some { b with
            bytes := fun o => if o - offset < size then (host.read (source.add (o - offset))).getD 0
              else b.bytes o }) }
    | none => host

/-- `CPUEAXH_FREE`; the caller's memory is never freed. -/
def free (host : HostMemory) : HostPtr → HostMemory
  | .user _ => host
  | .heap block _ => { host with blocks := Function.update host.blocks block none }

/-! ## What the operations leave alone -/

@[simp] theorem request_fst (host : HostMemory) :
    host.request.1 = host.grants host.requests := rfl

@[simp] theorem request_snd (host : HostMemory) :
    host.request.2 = { host with requests := host.requests + 1 } := rfl

/-- A read sees only the block of its pointer and the caller's bytes. -/
theorem read_congr {host host' : HostMemory} {p : HostPtr}
    (huser : host'.user = host.user)
    (hblock : ∀ b o, p = .heap b o → host'.blocks b = host.blocks b) :
    host'.read p = host.read p := by
  cases p with
  | user a => simp [read, huser]
  | heap b o => simp [read, hblock b o rfl]

/-- A store is seen through its own pointer only. -/
theorem read_write (host : HostMemory) (p q : HostPtr) (value : U8) :
    (host.write p value).read q =
      if q = p then (host.read p).map fun _ => value else host.read q := by
  cases p with
  | user a =>
    cases q with
    | user a' => by_cases h : a' = a <;> simp [read, write, h]
    | heap block offset => simp [read, write]
  | heap block offset =>
    cases hb : host.blocks block with
    | none =>
      by_cases h : q = .heap block offset
      · simp [write, read, hb, h]
      · simp [write, hb, h]
    | some b =>
      cases q with
      | user a' => simp [read, write, hb]
      | heap block' offset' =>
        by_cases h : block' = block
        · subst h
          by_cases ho : offset' = offset
          · subst ho
            by_cases hsize : offset' < b.size <;> simp [read, write, hb, hsize]
          · simp [read, write, hb, ho]
        · simp [read, write, hb, h]

/-- A read inside a live block. -/
theorem read_heap {host : HostMemory} {block : ℕ} {b : HeapBlock} {offset : U64}
    (hb : host.blocks block = some b) (hlt : offset < b.size) :
    host.read (.heap block offset) = some (b.bytes offset) := by
  simp [read, hb, hlt]

/-- `host'` has the caller's bytes, the allocation schedule and the blocks below
`n` of `host`; it may differ in the later blocks. -/
structure AgreesBelow (n : ℕ) (host host' : HostMemory) : Prop where
  blocks_eq : ∀ b, b < n → host'.blocks b = host.blocks b
  user_eq : host'.user = host.user
  grants_eq : host'.grants = host.grants
  nextBlock_le : host.nextBlock ≤ host'.nextBlock

namespace AgreesBelow

variable {n : ℕ} {host host' host'' : HostMemory}

theorem refl (n : ℕ) (host : HostMemory) : AgreesBelow n host host :=
  ⟨fun _ _ => rfl, rfl, rfl, le_rfl⟩

theorem trans (h : AgreesBelow n host host') (h' : AgreesBelow n host' host'') :
    AgreesBelow n host host'' where
  blocks_eq b hb := (h'.blocks_eq b hb).trans (h.blocks_eq b hb)
  user_eq := h'.user_eq.trans h.user_eq
  grants_eq := h'.grants_eq.trans h.grants_eq
  nextBlock_le := h.nextBlock_le.trans h'.nextBlock_le

theorem mono {m : ℕ} (h : AgreesBelow n host host') (hmn : m ≤ n) : AgreesBelow m host host' :=
  { h with blocks_eq := fun b hb => h.blocks_eq b (hb.trans_le hmn) }

/-- The agreeing memories read the same through a pointer below the bound. -/
theorem read_eq (h : AgreesBelow n host host') {p : HostPtr}
    (hp : ∀ b o, p = .heap b o → b < n) : host'.read p = host.read p :=
  read_congr h.user_eq fun b o heq => h.blocks_eq b (hp b o heq)

end AgreesBelow

/-- Only the count of requests changes when the allocator is asked. -/
theorem request_agrees (n : ℕ) (host : HostMemory) : AgreesBelow n host host.request.2 :=
  ⟨fun _ _ => rfl, rfl, rfl, le_rfl⟩

/-- Freeing a later block keeps the blocks below. -/
theorem free_agrees {n : ℕ} {host : HostMemory} {p : HostPtr}
    (hp : ∀ b o, p = .heap b o → n ≤ b) : AgreesBelow n host (host.free p) := by
  cases p with
  | user a => exact .refl n host
  | heap b o =>
    refine ⟨fun c hc => ?_, rfl, rfl, le_rfl⟩
    have hne : c ≠ b := by
      have := hp b o rfl
      omega
    simp [free, Function.update_of_ne hne]

/-- A denied allocation only counts the request. -/
theorem allocZeroed_denied {host : HostMemory} {size : U64}
    (h : host.grants host.requests = false) :
    host.allocZeroed size = (none, host.request.2) := by
  simp [allocZeroed, h]

/-- A granted allocation returns the start of a fresh zeroed block. -/
theorem allocZeroed_granted {host : HostMemory} {size : U64}
    (h : host.grants host.requests = true) :
    host.allocZeroed size = (some (.heap host.nextBlock 0),
      { host with
        requests := host.requests + 1
        blocks := Function.update host.blocks host.nextBlock
          (some { size := size, bytes := fun _ => 0 })
        nextBlock := host.nextBlock + 1 }) := by
  simp [allocZeroed, h]

/-- A copy to the start of a block. -/
theorem copy_heap {host : HostMemory} {block : ℕ} {b : HeapBlock}
    (hb : host.blocks block = some b) (source : HostPtr) (size : U64) :
    host.copy (.heap block 0) source size = { host with
      blocks := Function.update host.blocks block (some { b with
        bytes := fun o => if o < size then (host.read (source.add o)).getD 0 else b.bytes o }) } := by
  simp [copy, hb]

end HostMemory

end Cpueaxh
