/-
# Range operations that fail

`mm_unmap`, `mm_protect` and `mm_set_cpu_attrs` replace the regions under their range
one after the other.  When the allocator denies a request for one of them, the call
returns an error, and the regions before it stay as the operation has made them.

The call is harmless when it is denied nothing, or when every region before the one
that is denied a request already is as the operation would make it.
-/
import Cpueaxh.PageRefinement

namespace Cpueaxh

open IntervalTable HostMemory

/-! ## What a program can see of a page -/

/-- The bytes, permissions and attributes of a mapped page. -/
structure PageView where
  byte : BitVec 12 → U8
  perms : U32
  cpuAttrs : U32

/-- The view of a page; none of an unmapped one. -/
def pageView (mgr : MemoryManager) (p : Page) : Option PageView :=
  (pageAt mgr p).map fun record =>
    { byte := record.byte mgr.host.user, perms := record.perms, cpuAttrs := record.cpuAttrs }

/-- A range operation. -/
inductive RangeCall where
  | unmap (address size : U64)
  | protect (address size : U64) (perms : U32)
  | setCpuAttrs (address size : U64) (attrs : U32)
  deriving DecidableEq, Repr

namespace RangeCall

/-- Perform a range operation. -/
def perform (mgr : MemoryManager) : RangeCall → Bool × MemoryManager
  | .unmap address size => mmUnmap mgr address size
  | .protect address size perms => mmProtect mgr address size perms
  | .setCpuAttrs address size attrs => mmSetCpuAttrs mgr address size attrs

def address : RangeCall → U64
  | .unmap address _ => address
  | .protect address _ _ => address
  | .setCpuAttrs address _ _ => address

def size : RangeCall → U64
  | .unmap _ size => size
  | .protect _ size _ => size
  | .setCpuAttrs _ size _ => size

/-- What the operation makes of the part of a region in its range. -/
def middle : RangeCall → MiddlePart
  | .unmap _ _ => unmapMiddle
  | .protect _ _ perms => protectMiddle perms
  | .setCpuAttrs _ _ attrs => setCpuAttrsMiddle attrs

/-- The check of the operation's own argument. -/
def valid : RangeCall → Bool
  | .unmap _ _ => true
  | .protect _ _ perms => mmIsValidPerms perms
  | .setCpuAttrs _ _ attrs => mmIsValidCpuAttrs attrs

theorem perform_eq (mgr : MemoryManager) (call : RangeCall) :
    call.perform mgr = replaceRange call.middle call.valid mgr call.address call.size := by
  cases call <;> rfl

/-- A failed call has changed nothing. -/
def FailureHarmless (mgr : MemoryManager) (call : RangeCall) : Prop :=
  (call.perform mgr).1 = false → ∀ p, pageView (call.perform mgr).2 p = pageView mgr p

/-- Where the call stops: at the end of its range, or at the first region for which the
allocator denies a request. -/
def stopsAt (mgr : MemoryManager) (call : RangeCall) : U64 :=
  stopAddress call.middle mgr call.address call.size

/-- The call passes the argument checks, and the allocator denies it a request. -/
def Denied (mgr : MemoryManager) (call : RangeCall) : Prop :=
  RangeAccepted call.valid mgr call.address call.size ∧
    (call.stopsAt mgr).toNat < (call.address + call.size).toNat

/-- Every region that the call replaces before it is denied a request already is as the
operation would make it. -/
def ReplacesNothing (mgr : MemoryManager) (call : RangeCall) : Prop :=
  ∀ p : Page, call.address.toNat ≤ p.1.toNat → p.1.toNat < (call.stopsAt mgr).toNat →
    ∀ r, mmFindRegion mgr p.1 = some r →
      call.middle r.perms r.cpuAttrs = some (r.perms, r.cpuAttrs)

end RangeCall

/-! ## The exact condition -/

/-- The operation leaves the view of a record alone exactly when it keeps the
permissions and attributes. -/
theorem applyMiddle_view_iff (middle : MiddlePart) (record : PageRecord) (user : U64 → U8) :
    (applyMiddle middle record).map (fun record' => PageView.mk (record'.byte user)
        record'.perms record'.cpuAttrs) =
      some (PageView.mk (record.byte user) record.perms record.cpuAttrs) ↔
    middle record.perms record.cpuAttrs = some (record.perms, record.cpuAttrs) := by
  rw [applyMiddle]
  cases hmid : middle record.perms record.cpuAttrs with
  | none => simp
  | some m =>
    obtain ⟨perms, cpuAttrs⟩ := m
    simp only [Option.map_some, Option.some.injEq, PageView.mk.injEq, Prod.mk.injEq]
    refine ⟨fun h => h.2, fun h => ⟨?_, h⟩⟩
    rfl

/-- **The exact condition for one table.**  A failed call is harmless exactly when,
if the allocator denies it a request, it has replaced nothing before. -/
theorem failureHarmless_iff {mgr : MemoryManager} (hm : ManagerOk mgr) (call : RangeCall) :
    call.FailureHarmless mgr ↔ (call.Denied mgr → call.ReplacesNothing mgr) := by
  rw [RangeCall.FailureHarmless, RangeCall.Denied, call.perform_eq]
  by_cases hacc : RangeAccepted call.valid mgr call.address call.size
  · have d := replaceRange_spec call.middle hm hacc
    rw [← RangeCall.stopsAt] at d
    have hfail : (replaceRange call.middle call.valid mgr call.address call.size).1 = false ↔
        (call.stopsAt mgr).toNat < (call.address + call.size).toNat := by
      rw [← Bool.not_eq_true, d.ok_iff, not_le]
    rw [hfail]
    simp only [hacc, true_and]
    refine imp_congr_right fun _ => forall_congr' fun p => ?_
    rw [pageView, pageView, d.pageAt_eq p, d.user_eq]
    by_cases hin : call.address.toNat ≤ p.1.toNat ∧ p.1.toNat < (call.stopsAt mgr).toNat
    · rw [if_pos hin]
      simp only [hin.1, hin.2, true_implies]
      cases hfind : mmFindRegion mgr p.1 with
      | none => simp [pageAt, hfind]
      | some r =>
        have hview := applyMiddle_view_iff call.middle (pageRecord mgr.host r p.1) mgr.host.user
        simp only [pageAt, hfind, Option.map_some, Option.bind_some, Option.some.injEq,
          forall_eq']
        exact hview
    · rw [if_neg hin]
      exact iff_of_true rfl fun h1 h2 => absurd ⟨h1, h2⟩ hin
  · rw [replaceRange_rejected hacc]
    exact iff_of_true (fun _ _ => rfl) fun h => absurd h.1 hacc

/-- Every state that layout calls and stores lead to has the invariant. -/
theorem managerOk_memoryRun (host : HostMemory) (events : List MemoryEvent) :
    ManagerOk (Transition.run memoryStep (mmInit host) events) :=
  Transition.run_invariant_always ManagerOk
    (fun mgr event hm => by
      cases event with
      | layout call => exact (layoutStep_keeps mgr call hm).1
      | store address value => exact storeByte_managerOk hm address value)
    events _ (managerOk_mmInit host)

/-- **Failed range operations.**  For every reachable table, every range and every
schedule of the allocator, a call of `mm_unmap`, `mm_protect` or `mm_set_cpu_attrs`
that fails changes nothing if and only if it is not denied a request after it has
replaced a region that the operation changes. -/
theorem failed_range_call_harmless_iff (host : HostMemory) (events : List MemoryEvent)
    (call : RangeCall) :
    let mgr := Transition.run memoryStep (mmInit host) events
    call.FailureHarmless mgr ↔ (call.Denied mgr → call.ReplacesNothing mgr) :=
  failureHarmless_iff (managerOk_memoryRun host events) call

/-- Two mapped regions are protected, and the allocator denies the copy of the second:
the call fails, and the first region keeps its new permissions. -/
theorem failed_protect_changes_page :
    let host := HostMemory.initial (fun _ => 0) (fun n => n != 4)
    let mgr := Transition.run memoryStep (mmInit host)
      [.layout (.map 0x1000 0x1000 3), .layout (.map 0x2000 0x1000 3)]
    let call := RangeCall.protect 0x1000 0x2000 1
    (call.perform mgr).1 = false ∧
      (mmFindRegion mgr 0x1000).map (·.perms) = some 3 ∧
      (mmFindRegion (call.perform mgr).2 0x1000).map (·.perms) = some 1 ∧
      ¬ call.FailureHarmless mgr := by
  intro host mgr call
  have hfail : (call.perform mgr).1 = false := by decide
  refine ⟨hfail, by decide, by decide, fun h => ?_⟩
  have hview := congrArg (Option.map (·.perms)) (h hfail (pageOf 0x1000))
  have hold : (pageView mgr (pageOf 0x1000)).map (·.perms) = some 3 := by decide
  have hnew : (pageView (call.perform mgr).2 (pageOf 0x1000)).map (·.perms) = some 1 := by decide
  rw [hold, hnew] at hview
  exact absurd hview (by decide)

end Cpueaxh
