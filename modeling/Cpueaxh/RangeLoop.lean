/-
# The loop over a range

How far the loop of `mm_unmap`, `mm_protect` and `mm_set_cpu_attrs` gets is decided
by the allocator alone.  Each turn asks for one block per segment of an internal
region, and for a larger table when the table is full; the loop stops at the first
turn whose requests are not all granted.  `reach` computes that point from the
table as it is before the call.

The page map changes from the start of the range up to that point and nowhere else.
-/
import Cpueaxh.PageEdit

namespace Cpueaxh

open IntervalTable HostMemory

/-! ## Requests to the allocator -/

/-- The allocator grants `n` requests in a row, from number `start` on. -/
def grantsAll (grants : ℕ → Bool) : ℕ → ℕ → Bool
  | _, 0 => true
  | start, n + 1 => grants start && grantsAll grants (start + 1) n

theorem grantsAll_add (grants : ℕ → Bool) (m : ℕ) :
    ∀ start n, grantsAll grants start (m + n) =
      (grantsAll grants start m && grantsAll grants (start + m) n) := by
  induction m with
  | zero =>
    intro start n
    simp [grantsAll]
  | succ m ih =>
    intro start n
    rw [Nat.add_right_comm, grantsAll, grantsAll, ih, Bool.and_assoc]
    congr 3
    omega

/-- What decides the requests of a turn: how many were made, and how full the
table is. -/
structure AllocState where
  requests : ℕ
  count : ℕ
  capacity : ℕ
  deriving DecidableEq, Repr

/-- The allocation state of a manager. -/
def MemoryManager.allocState (mgr : MemoryManager) : AllocState :=
  ⟨mgr.host.requests, mgr.regions.length, mgr.regionCapacity⟩

@[simp] theorem MemoryManager.allocState_requests (mgr : MemoryManager) :
    mgr.allocState.requests = mgr.host.requests := rfl

/-- The requests of building `n` segments of a region. -/
def buildCost (r : MemoryRegion) (n : ℕ) : ℕ := if r.external then 0 else n

/-- The requests of making room for `n` regions in place of one. -/
def roomCost (s : AllocState) (n : ℕ) : ℕ := if s.count - 1 + n ≤ s.capacity then 0 else 1

/-- The allocation state after a turn that replaced `r` by `n` regions. -/
def AllocState.after (s : AllocState) (r : MemoryRegion) (n : ℕ) : AllocState :=
  { requests := s.requests + (buildCost r n + roomCost s n)
    count := s.count - 1 + n
    capacity := if s.count - 1 + n ≤ s.capacity then s.capacity
      else grownCapacity s.capacity (s.count - 1 + n) }

/-- The number of segments that take the place of a region. -/
def segmentCount (middle : MiddlePart) (r : MemoryRegion) (current endAddress : U64) : ℕ :=
  (replacementSegments middle r current (chunkEnd r endAddress)).length

/-- Where the loop stops: at the end of the range, at an unmapped address, or at the
first region whose turn is denied a request. -/
def reach (middle : MiddlePart) (mgr : MemoryManager) (endAddress : U64) :
    ℕ → U64 → AllocState → U64
  | 0, current, _ => current
  | fuel + 1, current, s =>
    if current < endAddress then
      match mmFindRegion mgr current with
      | none => current
      | some r =>
        let n := segmentCount middle r current endAddress
        if grantsAll mgr.host.grants s.requests (buildCost r n + roomCost s n) then
          reach middle mgr endAddress fuel (chunkEnd r endAddress) (s.after r n)
        else current
    else current

/-! ## The requests of a turn -/

/-- Building a segment asks once for an internal region and never for an external
one, and fails exactly when the request is denied. -/
theorem mmBuildRegionSegment_alloc {host host' : HostMemory} {source : MemoryRegion}
    {segment : Segment} {result : Option MemoryRegion} (hsize : segment.size ≠ 0)
    (h : mmBuildRegionSegment host source segment = (result, host')) :
    result.isSome = grantsAll host.grants host.requests (buildCost source 1) ∧
      host'.requests = host.requests + buildCost source 1 ∧ host'.grants = host.grants := by
  rw [mmBuildRegionSegment, if_neg hsize] at h
  cases hext : source.external with
  | true =>
    simp only [hext, if_true] at h
    cases h
    simp [buildCost, hext, grantsAll]
  | false =>
    simp only [hext, Bool.false_eq_true, if_false] at h
    cases hgrant : host.grants host.requests with
    | false =>
      rw [allocZeroed_denied hgrant] at h
      cases h
      simp [buildCost, hext, grantsAll, hgrant]
    | true =>
      rw [allocZeroed_granted hgrant] at h
      obtain ⟨host₁, hhost₁⟩ : ∃ host₁ : HostMemory, host₁ = { host with
          requests := host.requests + 1
          blocks := Function.update host.blocks host.nextBlock
            (some { size := segment.size, bytes := fun _ => 0 })
          nextBlock := host.nextBlock + 1 } := ⟨_, rfl⟩
      have hfresh : host₁.blocks host.nextBlock =
          some { size := segment.size, bytes := fun _ => 0 } := by
        rw [hhost₁]
        exact Function.update_self ..
      simp only [← hhost₁, copy_heap hfresh] at h
      cases h
      simp [buildCost, hext, grantsAll, hgrant, hhost₁]

/-- The segments of a region are all built exactly when all requests are granted. -/
theorem buildSegments_alloc {source : MemoryRegion} (segments : List Segment) :
    ∀ (host : HostMemory) (built : List MemoryRegion) (result : Option (List MemoryRegion))
      (host' : HostMemory), (∀ s ∈ segments, s.size ≠ 0) →
      buildSegments source host built segments = (result, host') →
      result.isSome = grantsAll host.grants host.requests (buildCost source segments.length) ∧
      ∀ rs, result = some rs → rs.length = built.length + segments.length ∧
        host'.requests = host.requests + buildCost source segments.length ∧
        host'.grants = host.grants := by
  induction segments with
  | nil =>
    intro host built result host' _ h
    rw [buildSegments] at h
    cases h
    simp [buildCost, grantsAll]
  | cons segment rest ih =>
    intro host built result host' hsize h
    rw [buildSegments] at h
    rcases hone : mmBuildRegionSegment host source segment with ⟨result₁, host₁⟩
    obtain ⟨hsome, hreq, hgrants⟩ :=
      mmBuildRegionSegment_alloc (hsize segment (List.mem_cons_self ..)) hone
    have hcost : buildCost source (segment :: rest).length =
        buildCost source 1 + buildCost source rest.length := by
      rw [List.length_cons, buildCost, buildCost, buildCost]
      split_ifs <;> omega
    rw [hone] at h
    rw [hcost, grantsAll_add, ← hsome]
    cases result₁ with
    | none =>
      cases h
      exact ⟨rfl, fun rs hrs => by cases hrs⟩
    | some region =>
      obtain ⟨h1, h2⟩ := ih host₁ _ result host' (fun s hs => hsize s (List.mem_cons_of_mem _ hs)) h
      rw [hgrants, hreq] at h1
      refine ⟨by rw [h1]; rfl, fun rs hrs => ?_⟩
      obtain ⟨h3, h4, h5⟩ := h2 rs hrs
      refine ⟨?_, by rw [h4, hreq, Nat.add_assoc], h5.trans hgrants⟩
      rw [h3, List.length_append, List.length_cons, List.length_cons, List.length_nil]
      omega

/-- Replacing a region asks for memory only when the table is full. -/
theorem mmReplaceRegion_alloc {mgr mgr' : MemoryManager} {i : ℕ} {r : MemoryRegion}
    {new : List MemoryRegion} {ok : Bool} (hi : mgr.regions[i]? = some r)
    (h : mmReplaceRegion mgr i new = (ok, mgr')) :
    ok = grantsAll mgr.host.grants mgr.host.requests (roomCost mgr.allocState new.length) ∧
      (ok = true → mgr'.host.grants = mgr.host.grants ∧ mgr'.allocState =
        { requests := mgr.host.requests + roomCost mgr.allocState new.length
          count := mgr.regions.length - 1 + new.length
          capacity := if mgr.regions.length - 1 + new.length ≤ mgr.regionCapacity
            then mgr.regionCapacity
            else grownCapacity mgr.regionCapacity (mgr.regions.length - 1 + new.length) }) := by
  obtain ⟨hlt, -⟩ := List.getElem?_eq_some_iff.mp hi
  have hlen : (mgr.regions.take i ++ new ++ mgr.regions.drop (i + 1)).length =
      mgr.regions.length - 1 + new.length := by
    simp only [List.length_append, List.length_take, List.length_drop]
    omega
  rw [mmReplaceRegion, hi] at h
  simp only [mmReserveRegionCapacity, request_fst] at h
  by_cases hroom : mgr.regions.length - 1 + new.length ≤ mgr.regionCapacity
  · have hcost : roomCost mgr.allocState new.length = 0 := if_pos hroom
    simp only [hcost, if_pos hroom] at h ⊢
    cases h
    refine ⟨rfl, fun _ => ⟨?_, ?_⟩⟩
    · simp [mmInvalidateCache, mmBumpCodeVersion]
    · simp only [MemoryManager.allocState, mmInvalidateCache, mmBumpCodeVersion, hlen,
        release_requests, Nat.add_zero]
  · have hcost : roomCost mgr.allocState new.length = 1 := if_neg hroom
    simp only [hcost, if_neg hroom] at h ⊢
    cases hgrant : mgr.host.grants mgr.host.requests with
    | true =>
      simp only [hgrant, if_true] at h
      cases h
      refine ⟨by simp [grantsAll, hgrant], fun _ => ⟨?_, ?_⟩⟩
      · simp [mmInvalidateCache, mmBumpCodeVersion]
      · simp only [MemoryManager.allocState, mmInvalidateCache, mmBumpCodeVersion, hlen,
          release_requests, request_snd]
    | false =>
      simp only [hgrant, Bool.false_eq_true, if_false] at h
      cases h
      exact ⟨by simp [grantsAll, hgrant], fun hfalse => by cases hfalse⟩

/-- **The requests of a turn.**  A turn succeeds exactly when the allocator grants
the blocks of its segments and the room in the table. -/
theorem replaceChunk_alloc {middle : MiddlePart} {mgr mgr' : MemoryManager} {i : ℕ}
    {r : MemoryRegion} {current endAddress : U64} {ok : Bool} (hi : mgr.regions[i]? = some r)
    (hat : ChunkAt r current endAddress)
    (h : replaceChunk middle mgr i r current endAddress = (ok, mgr')) :
    ok = grantsAll mgr.host.grants mgr.allocState.requests
        (buildCost r (segmentCount middle r current endAddress) +
          roomCost mgr.allocState (segmentCount middle r current endAddress)) ∧
      (ok = true → mgr'.host.grants = mgr.host.grants ∧
        mgr'.allocState = mgr.allocState.after r (segmentCount middle r current endAddress)) := by
  have hsize : ∀ s ∈ replacementSegments middle r current (chunkEnd r endAddress),
      s.size ≠ 0 := by
    intro s hs hzero
    have hpos := ((replacementSegments_within middle hat).1 s hs).size_pos
    rw [hzero] at hpos
    exact absurd hpos (by decide)
  rw [replaceChunk] at h
  rcases hbuild : buildSegments r mgr.host []
      (replacementSegments middle r current (chunkEnd r endAddress)) with ⟨result, host₁⟩
  obtain ⟨hsome, hbuilt⟩ := buildSegments_alloc _ _ _ _ _ hsize hbuild
  rw [← segmentCount] at hsome hbuilt
  rw [hbuild] at h
  rw [MemoryManager.allocState_requests, grantsAll_add, ← hsome]
  cases result with
  | none =>
    cases h
    exact ⟨rfl, fun hfalse => by cases hfalse⟩
  | some new =>
    obtain ⟨hlen, hreq, hgrants⟩ := hbuilt new rfl
    rw [List.length_nil, Nat.zero_add] at hlen
    simp only at h
    rcases hrep : mmReplaceRegion { mgr with host := host₁ } i new with ⟨b, mgr₁⟩
    have hi₁ : ({ mgr with host := host₁ } : MemoryManager).regions[i]? = some r := hi
    obtain ⟨hok, hdone⟩ := mmReplaceRegion_alloc hi₁ hrep
    have hroom : roomCost { mgr with host := host₁ : MemoryManager }.allocState new.length =
        roomCost mgr.allocState (segmentCount middle r current endAddress) := by
      rw [hlen]
      rfl
    rw [hroom] at hok hdone
    simp only [hgrants, hreq] at hok hdone
    rw [hrep] at h
    cases b with
    | false =>
      cases h
      exact ⟨by rw [← hok]; rfl, fun hfalse => by cases hfalse⟩
    | true =>
      cases h
      refine ⟨by rw [← hok]; rfl, fun _ => ?_⟩
      obtain ⟨h1, h2⟩ := hdone rfl
      refine ⟨h1, h2.trans ?_⟩
      rw [AllocState.after, hlen, Nat.add_assoc]
      rfl

/-! ## The loop -/

/-- A run of the loop over `[start, endAddress)` that got as far as `stop`. -/
structure RangeDone (middle : MiddlePart) (mgr mgr' : MemoryManager) (ok : Bool)
    (start stop endAddress : U64) : Prop where
  managerOk : ManagerOk mgr'
  user_eq : mgr'.host.user = mgr.host.user
  mem_cases : ∀ r ∈ mgr'.regions, r ∈ mgr.regions ∨ ¬ r.ReachesTop
  ok_iff : ok = true ↔ endAddress.toNat ≤ stop.toNat
  start_le : start.toNat ≤ stop.toNat
  stop_le : start.toNat ≤ endAddress.toNat → stop.toNat ≤ endAddress.toNat
  pageAt_eq : ∀ p : Page, pageAt mgr' p =
    if start.toNat ≤ p.1.toNat ∧ p.1.toNat < stop.toNat
    then (pageAt mgr p).bind (applyMiddle middle) else pageAt mgr p

/-- A call that stops where it starts and leaves the table alone. -/
theorem RangeDone.of_agrees {middle : MiddlePart} {mgr mgr' : MemoryManager} {ok : Bool}
    {start endAddress : U64} (h : ManagerOk mgr) (hregions : mgr'.regions = mgr.regions)
    (hagree : AgreesBelow mgr.host.nextBlock mgr.host mgr'.host)
    (hok : ok = true ↔ endAddress.toNat ≤ start.toNat) :
    RangeDone middle mgr mgr' ok start start endAddress where
  managerOk := h.of_agrees hregions hagree
  user_eq := hagree.user_eq
  mem_cases r hr := Or.inl (hregions ▸ hr)
  ok_iff := hok
  start_le := le_rfl
  stop_le := id
  pageAt_eq p := by
    rw [if_neg (by omega)]
    exact congrFun (congrArg FlatMemory.page (toFlat_of_agrees h hregions hagree)) p

/-- The lookup at or after the end of the part in the range does not see the turn. -/
theorem TurnDone.mmFindRegion_eq {middle : MiddlePart} {mgr mgr' : MemoryManager} {i : ℕ}
    {r : MemoryRegion} {current endAddress : U64} {host : HostMemory} {new : List MemoryRegion}
    (t : TurnDone middle mgr mgr' i r current endAddress host new) (h : ManagerOk mgr)
    {x : U64} (hx : (chunkEnd r endAddress).toNat ≤ x.toNat) (hlt : x.toNat < endAddress.toNat) :
    mmFindRegion mgr' x = mmFindRegion mgr x := by
  have hstop := t.place.chunkEnd_toNat
  rw [mmFindRegion_eq_lookup (t.managerOk h).table.arranged,
    mmFindRegion_eq_lookup h.table.arranged, t.lookup_eq h, if_neg]
  rintro ⟨-, hhi⟩
  omega

/-- A successful turn followed by a run of the loop. -/
theorem RangeDone.cons {middle : MiddlePart} {mgr mgr₁ mgr' : MemoryManager} {i : ℕ}
    {r : MemoryRegion} {current endAddress stop : U64} {host : HostMemory}
    {new : List MemoryRegion} {ok : Bool}
    (t : TurnDone middle mgr mgr₁ i r current endAddress host new) (h : ManagerOk mgr)
    (d : RangeDone middle mgr₁ mgr' ok (chunkEnd r endAddress) stop endAddress) :
    RangeDone middle mgr mgr' ok current stop endAddress where
  managerOk := d.managerOk
  user_eq := by rw [d.user_eq, t.host_eq, release_user, t.agrees.user_eq]
  mem_cases s hs := by
    rcases d.mem_cases s hs with hs | hs
    · rcases t.mem_cases hs with ⟨-, hs⟩ | hs
      · exact Or.inl hs
      · exact Or.inr (t.new_inside s hs).2.1
    · exact Or.inr hs
  ok_iff := d.ok_iff
  start_le := t.place.current_lt_chunkEnd.le.trans d.start_le
  stop_le _ := d.stop_le (by
    rw [t.place.chunkEnd_toNat]
    omega)
  pageAt_eq p := by
    have hlt := t.place.current_lt_chunkEnd
    have hle := d.start_le
    rw [d.pageAt_eq, t.pageAt_eq h]
    by_cases hturn : p.1.toNat < (chunkEnd r endAddress).toNat
    · rw [if_neg (by omega)]
      exact if_congr (by omega) rfl rfl
    · rw [if_neg (c := current.toNat ≤ p.1.toNat ∧ p.1.toNat < (chunkEnd r endAddress).toNat)
        (by omega)]
      exact if_congr (by omega) rfl rfl

/-- **The loop.**  Started in a state that looks the rest of the range up as the
state `mgr₀` before the call does, the loop gets exactly as far as `reach` says. -/
theorem replaceLoop_spec (middle : MiddlePart) (mgr₀ : MemoryManager) {endAddress : U64}
    (hend : endAddress.toNat % 4096 = 0) (fuel : ℕ) :
    ∀ (current : U64) (mgr : MemoryManager), ManagerOk mgr →
      mgr.host.grants = mgr₀.host.grants →
      (∀ x : U64, current.toNat ≤ x.toNat → x.toNat < endAddress.toNat →
        mmFindRegion mgr x = mmFindRegion mgr₀ x) →
      current.toNat % 4096 = 0 → endAddress.toNat - current.toNat ≤ fuel →
      RangeDone middle mgr (replaceLoop middle endAddress fuel current mgr).2
        (replaceLoop middle endAddress fuel current mgr).1 current
        (reach middle mgr₀ endAddress fuel current mgr.allocState) endAddress := by
  induction fuel with
  | zero =>
    intro current mgr hm _ _ _ hfuel
    exact .of_agrees hm rfl (.refl _ _) (iff_of_true rfl (by omega))
  | succ fuel ih =>
    intro current mgr hm hgrants hsame hcur hfuel
    rw [replaceLoop, reach]
    by_cases hlt : current < endAddress
    · have hltNat := BitVec.lt_def.mp hlt
      have hnot : (false = true) ↔ endAddress.toNat ≤ current.toNat :=
        iff_of_false Bool.false_ne_true (by omega)
      rw [if_pos hlt, if_pos hlt, ← hsame current le_rfl hltNat, mmFindRegion, ← hgrants]
      cases hfind : mmFindRegionIndex mgr current with
      | none =>
        exact .of_agrees hm rfl (.refl _ _) hnot
      | some i =>
        obtain ⟨r, hi, hcov⟩ := (mmFindRegionIndex_eq_some_iff hm.table.arranged).mp hfind
        have hmem := List.mem_of_getElem? hi
        have hat : ChunkAt r current endAddress :=
          ⟨hm.table.shape r hmem, hcov, hcur, hend, hltNat⟩
        simp only [Option.bind_some, hi]
        rcases hturn : replaceChunk middle mgr i r current endAddress with ⟨b, mgr₁⟩
        obtain ⟨halloc, hafter⟩ := replaceChunk_alloc hi hat hturn
        rcases replaceChunk_cases hi hat (hm.stored r hmem) hturn with
          ⟨rfl, hregions, hagree⟩ | ⟨rfl, host, new, t⟩
        · rw [if_neg (fun htrue => Bool.false_ne_true (halloc.trans htrue))]
          exact .of_agrees hm hregions hagree hnot
        · obtain ⟨hgrants₁, hstate⟩ := hafter rfl
          have hstop := hat.current_lt_chunkEnd
          rw [if_pos halloc.symm, ← hstate]
          refine .cons t hm (ih _ mgr₁ (t.managerOk hm) (hgrants₁.trans hgrants) ?_
            hat.chunkEnd_aligned (by omega))
          intro x hx hxlt
          rw [t.mmFindRegion_eq hm hx hxlt]
          exact hsame x (by omega) hxlt
    · rw [if_neg hlt, if_neg hlt]
      rw [BitVec.lt_def] at hlt
      exact .of_agrees hm rfl (.refl _ _) (iff_of_true rfl (by omega))

/-! ## A range operation -/

/-- The arguments of a range operation pass its checks. -/
structure RangeAccepted (valid : Bool) (mgr : MemoryManager) (address size : U64) : Prop where
  size_ne : size ≠ 0
  address_aligned : mmIsPageAligned address = true
  size_aligned : mmIsPageAligned size = true
  no_overflow : mmRangeOverflows address size = false
  valid_eq : valid = true
  mapped : mmCheckRangeMapped mgr address size = true

/-- Where a range operation on a table stops. -/
def stopAddress (middle : MiddlePart) (mgr : MemoryManager) (address size : U64) : U64 :=
  reach middle mgr (address + size) size.toNat address mgr.allocState

/-- A range operation whose arguments are rejected, or whose range is empty, does
nothing. -/
theorem replaceRange_rejected {middle : MiddlePart} {valid : Bool} {mgr : MemoryManager}
    {address size : U64} (h : ¬ RangeAccepted valid mgr address size) :
    replaceRange middle valid mgr address size = (decide (size = 0), mgr) := by
  rw [replaceRange]
  by_cases hsize : size = 0
  · rw [if_pos hsize, decide_eq_true hsize]
  rw [if_neg hsize, decide_eq_false hsize]
  split_ifs with h1 h2
  · rfl
  · rfl
  · simp only [Bool.or_eq_true, not_or, Bool.not_eq_eq_eq_not, Bool.not_true,
      Bool.not_eq_false, Bool.not_eq_true] at h1 h2
    exact absurd ⟨hsize, h1.1.1, h1.1.2, h1.2, h2.1, h2.2⟩ h

/-- A range operation whose arguments are accepted is its loop. -/
theorem replaceRange_eq_loop {middle : MiddlePart} {valid : Bool} {mgr : MemoryManager}
    {address size : U64} (h : RangeAccepted valid mgr address size) :
    replaceRange middle valid mgr address size =
      replaceLoop middle (address + size) size.toNat address mgr := by
  rw [replaceRange, if_neg h.size_ne, if_neg (by simp [h.address_aligned, h.size_aligned,
    h.no_overflow]), if_neg (by simp [h.valid_eq, h.mapped])]

/-- **A range operation.**  An accepted call changes the pages from its address up
to the point where it stops. -/
theorem replaceRange_spec (middle : MiddlePart) {valid : Bool} {mgr : MemoryManager}
    {address size : U64} (hm : ManagerOk mgr) (h : RangeAccepted valid mgr address size) :
    RangeDone middle mgr (replaceRange middle valid mgr address size).2
      (replaceRange middle valid mgr address size).1 address
      (stopAddress middle mgr address size) (address + size) := by
  have haddr := (mmIsPageAligned_iff address).mp h.address_aligned
  have hsize := (mmIsPageAligned_iff size).mp h.size_aligned
  rw [replaceRange_eq_loop h]
  refine replaceLoop_spec middle mgr ?_ size.toNat address mgr hm rfl (fun _ _ _ => rfl) haddr ?_
  · rw [BitVec.toNat_add]
    omega
  · rw [BitVec.toNat_add]
    omega

end Cpueaxh
