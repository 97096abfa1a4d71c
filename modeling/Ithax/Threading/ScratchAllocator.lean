import Ithax.Lib.Arena
import Ithax.Lib.Watched

/-!
# The scratch allocator

`threading/scratch_allocator.cpp`: a fixed block of memory that its owner thread gives out
from the front and takes back with `Reset`. A span is its offset in the block and its size.
`SCRATCH_ALLOCATOR_BASE_ALIGNMENT` is the platform's largest alignment and a parameter.

* `allocate_eq`           — what one `Allocate` of the owner does;
* `scratch_blocks_apart`  — what is out, after any calls.
-/

namespace Ithax.Threading

open Ithax.Lib

-- ---------------------------------------------------------------------------
-- Model
-- ---------------------------------------------------------------------------

/-- The largest capacity, in bytes. -/
def MAX_SCRATCH_ALLOCATOR_CAPACITY : UInt64 := 16 * 1024 * 1024

/-- The exceptions, each with its message. -/
inductive ScratchAllocatorError where
  | capacity (message : String)
  | alignment (message : String)
  | overflow (message : String)
  | ownership (message : String)
deriving DecidableEq, Repr

/-- The members: how much there is, how much is taken, and whose it is. -/
structure ScratchAllocator where
  capacity : UInt64
  offset : UInt64
  ownerThread : Nat
deriving DecidableEq, Repr

/-- A span that is not empty. -/
structure Span where
  start : UInt64
  size : UInt64
deriving DecidableEq, Repr

/-- A method of the allocator. -/
abbrev ScratchM := EStateM ScratchAllocatorError (Watched ScratchAllocator)

/-- `ValidateCapacity`. -/
def validateCapacity (capacity : UInt64) : Except ScratchAllocatorError UInt64 :=
  if capacity = 0 ∨ capacity > MAX_SCRATCH_ALLOCATOR_CAPACITY then
    .error (.capacity "scratch allocator capacity is outside its bound")
  else .ok capacity

/-- The constructor, when `operator new` has the memory. -/
def construct (thread : Nat) (capacity : UInt64) :
    Except ScratchAllocatorError ScratchAllocator := do
  let capacity ← validateCapacity capacity
  .ok ⟨capacity, 0, thread⟩

/-- `AssertOwner`. -/
def assertOwner (thread : Nat) : ScratchM Unit := do
  let s ← get
  if s.object.ownerThread ≠ thread then
    throw (.ownership "scratch allocator accessed by a non-owner thread")

/-- The second test is not made when the first one fails. -/
def validateAlignment (baseAlignment alignment : UInt64) : ScratchM UInt64 := do
  let invalid := .alignment "scratch allocator alignment is invalid"
  if alignment = 0 ∨ alignment > baseAlignment then throw invalid
  else do
    let mask ← Watched.sub alignment 1
    if alignment &&& mask ≠ 0 then throw invalid else pure alignment

/-- `ComputePadding`. -/
def computePadding (offset alignment : UInt64) : ScratchM UInt64 :=
  let remainder := offset % alignment
  if remainder = 0 then pure 0 else Watched.sub alignment remainder

/-- `padding > m_capacity - m_offset || size > m_capacity - m_offset - padding`. -/
def exceedsCapacity (size padding : UInt64) : ScratchM Bool := do
  let s ← get
  let room ← Watched.sub s.object.capacity s.object.offset
  if padding > room then pure true
  else do
    let room ← Watched.sub s.object.capacity s.object.offset
    let left ← Watched.sub room padding
    pure (size > left)

/-- `Allocate`: an empty span where there is no room. -/
def allocate (baseAlignment : UInt64) (thread : Nat) (size alignment : UInt64) :
    ScratchM (Option Span) := do
  assertOwner thread
  let validAlignment ← validateAlignment baseAlignment alignment
  if size = 0 then pure none
  else do
    let s ← get
    let padding ← computePadding s.object.offset validAlignment
    let exceeds ← exceedsCapacity size padding
    if exceeds then throw (.overflow "scratch allocation exceeds its fixed capacity")
    else do
      let start ← Watched.add s.object.offset padding
      let offset ← Watched.add start size
      Watched.set { s.object with offset }
      pure (some ⟨start, size⟩)

/-- `Reset`. -/
def reset (thread : Nat) : ScratchM Unit := do
  assertOwner thread
  let s ← get
  Watched.set { s.object with offset := 0 }

-- ---------------------------------------------------------------------------
-- The parts of Allocate
-- ---------------------------------------------------------------------------

/-- What `ValidateAlignment` accepts. -/
def ValidAlignment (baseAlignment alignment : UInt64) : Prop :=
  alignment ≠ 0 ∧ alignment ≤ baseAlignment ∧ alignment &&& (alignment - 1) = 0

instance (baseAlignment alignment : UInt64) : Decidable (ValidAlignment baseAlignment alignment) :=
  inferInstanceAs (Decidable (_ ∧ _ ∧ _))

section Parts

variable {baseAlignment alignment size : UInt64} {thread : Nat} {s : Watched ScratchAllocator}

/-- What is not zero is positive. -/
theorem toNat_pos_of_ne {n : UInt64} (h : n ≠ 0) : 0 < n.toNat := by
  rw [← UInt64.toNat_inj.ne] at h
  simp at h
  omega

/-- Only the owner passes. -/
theorem assertOwner_eq :
    assertOwner thread s =
      if s.object.ownerThread = thread then .ok () s
      else .error (.ownership "scratch allocator accessed by a non-owner thread") s := by
  unfold assertOwner
  rw [bind_of_ok (get_run s)]
  by_cases hOwner : s.object.ownerThread = thread
  · simp [hOwner]
    rfl
  · simp [hOwner]
    rfl

/-- Only a valid alignment passes. -/
theorem validateAlignment_eq :
    validateAlignment baseAlignment alignment s =
      if ValidAlignment baseAlignment alignment then .ok alignment s
      else .error (.alignment "scratch allocator alignment is invalid") s := by
  unfold validateAlignment ValidAlignment
  by_cases hOutside : alignment = 0 ∨ alignment > baseAlignment
  · have hNot : ¬(alignment ≠ 0 ∧ alignment ≤ baseAlignment ∧ alignment &&& (alignment - 1) = 0) := by
      rintro ⟨hZero, hBase, -⟩
      obtain hEmpty | hAbove := hOutside
      · exact hZero hEmpty
      · exact UInt64.not_lt.mpr hBase hAbove
    simp only [hOutside, hNot, if_true, if_false]
    rfl
  · have hInside := not_or.mp hOutside
    have hOne : (1 : UInt64) ≤ alignment := by
      have hZero := hInside.1
      rw [UInt64.le_iff_toNat_le]
      rw [← UInt64.toNat_inj] at hZero
      simp at hZero ⊢
      omega
    have hBase : alignment ≤ baseAlignment := UInt64.not_lt.mp hInside.2
    simp only [hOutside, if_false]
    rw [bind_of_ok (Watched.sub_of_le hOne)]
    by_cases hPower : alignment &&& (alignment - 1) = 0
    · simp [hPower, hInside.1, hBase]
      rfl
    · simp [hPower]
      rfl

/-- The padding goes up to the next multiple, without a wrap. -/
theorem computePadding_eq (offset : UInt64) (h : alignment ≠ 0) :
    ∃ padding, computePadding offset alignment s = .ok padding s ∧
      padding.toNat = paddingTo offset.toNat alignment.toNat := by
  unfold computePadding paddingTo
  have hLess := Nat.mod_lt offset.toNat (toNat_pos_of_ne h)
  have hRemainder : (offset % alignment).toNat = offset.toNat % alignment.toNat :=
    UInt64.toNat_mod _ _
  by_cases hZero : offset % alignment = 0
  · rw [hZero] at hRemainder
    refine ⟨0, by simp [hZero]; rfl, ?_⟩
    simp [← hRemainder]
  · have hSub : offset % alignment ≤ alignment := by
      rw [UInt64.le_iff_toNat_le, hRemainder]
      omega
    refine ⟨alignment - offset % alignment, ?_, ?_⟩
    · simp only [hZero, if_false]
      exact Watched.sub_of_le hSub
    · have hRest : offset.toNat % alignment.toNat ≠ 0 := by
        rw [← hRemainder]
        intro hNo
        exact hZero (UInt64.toNat_inj.mp hNo)
      rw [if_neg hRest, UInt64.toNat_sub_of_le _ _ hSub, hRemainder]

/-- The comparison is one of natural numbers: its sums do not wrap. -/
theorem exceedsCapacity_eq (size padding : UInt64) (h : s.object.offset ≤ s.object.capacity) :
    exceedsCapacity size padding s = .ok
      (decide (s.object.capacity.toNat < s.object.offset.toNat + padding.toNat + size.toNat)) s := by
  have hRoom := UInt64.toNat_sub_of_le _ _ h
  have hOffset := UInt64.le_iff_toNat_le.mp h
  unfold exceedsCapacity
  rw [bind_of_ok (get_run s), bind_of_ok (Watched.sub_of_le h)]
  by_cases hPadding : padding > s.object.capacity - s.object.offset
  · have hPast := UInt64.lt_iff_toNat_lt.mp hPadding
    have hBeyond : s.object.capacity.toNat <
      s.object.offset.toNat + padding.toNat + size.toNat := by omega
    simp [hPadding, hBeyond]
    rfl
  · have hWithin : padding ≤ s.object.capacity - s.object.offset := UInt64.not_lt.mp hPadding
    have hLeft := UInt64.toNat_sub_of_le _ _ hWithin
    have hNat := UInt64.le_iff_toNat_le.mp hWithin
    simp only [hPadding, if_false]
    rw [bind_of_ok (Watched.sub_of_le h), bind_of_ok (Watched.sub_of_le hWithin)]
    have hSame : (size > s.object.capacity - s.object.offset - padding) ↔
        s.object.capacity.toNat < s.object.offset.toNat + padding.toNat + size.toNat := by
      rw [gt_iff_lt, UInt64.lt_iff_toNat_lt]
      omega
    simp [hSame]
    rfl

end Parts

-- ---------------------------------------------------------------------------
-- Allocate
-- ---------------------------------------------------------------------------

/-- What the owner has taken from the allocator, as an arena. -/
def ScratchAllocator.arena (allocator : ScratchAllocator) (blocks : List Block) : Arena :=
  ⟨allocator.offset.toNat, blocks⟩

/-- The span that `Allocate` returns. -/
def ScratchAllocator.span (allocator : ScratchAllocator) (size alignment : UInt64) : Span :=
  ⟨UInt64.ofNat (alignUp allocator.offset.toNat alignment.toNat), size⟩

/-- The bytes of a span, with the alignment that was asked for. -/
def Span.block (span : Span) (alignment : UInt64) : Block :=
  ⟨span.start.toNat, span.size.toNat, alignment.toNat⟩

section Allocate

variable {baseAlignment alignment size : UInt64} {thread : Nat} {s : Watched ScratchAllocator}
  {blocks : List Block}

/-- The owner gets the block that the arena takes next, if the capacity has room for it. -/
theorem allocate_of_valid (hOwner : s.object.ownerThread = thread)
    (hInside : s.object.offset ≤ s.object.capacity)
    (hAlignment : ValidAlignment baseAlignment alignment) (hSize : size ≠ 0) :
    allocate baseAlignment thread size alignment s =
      let stop := alignUp s.object.offset.toNat alignment.toNat + size.toNat
      if stop ≤ s.object.capacity.toNat then
        .ok (some (s.object.span size alignment))
          { s with object := { s.object with offset := UInt64.ofNat stop } }
      else .error (.overflow "scratch allocation exceeds its fixed capacity") s := by
  obtain ⟨padding, hRun, hPadding⟩ := computePadding_eq s.object.offset hAlignment.1 (s := s)
  have hExceeds := exceedsCapacity_eq size padding hInside
  have hStart : s.object.offset.toNat + padding.toNat =
      alignUp s.object.offset.toNat alignment.toNat := by
    rw [alignUp, hPadding]
  unfold allocate
  rw [bind_of_ok (by rw [assertOwner_eq, if_pos hOwner]),
    bind_of_ok (by rw [validateAlignment_eq, if_pos hAlignment]), if_neg hSize,
    bind_of_ok (get_run s), bind_of_ok hRun, bind_of_ok hExceeds, hStart]
  have hCapacity := s.object.capacity.toNat_lt
  by_cases hRoom : alignUp s.object.offset.toNat alignment.toNat + size.toNat ≤
      s.object.capacity.toNat
  · have hFits : ¬s.object.capacity.toNat <
        alignUp s.object.offset.toNat alignment.toNat + size.toNat := by omega
    have hFirst : (s.object.offset + padding).toNat =
        alignUp s.object.offset.toNat alignment.toNat := by
      rw [UInt64.toNat_add, hStart]
      omega
    have hAdd : (s.object.offset + padding).toNat + size.toNat < 2 ^ 64 := by omega
    have hSpan : s.object.offset + padding =
        UInt64.ofNat (alignUp s.object.offset.toNat alignment.toNat) := by
      rw [← hFirst, UInt64.ofNat_toNat]
    have hStop : s.object.offset + padding + size =
        UInt64.ofNat (alignUp s.object.offset.toNat alignment.toNat + size.toNat) := by
      rw [hSpan, UInt64.ofNat_add, UInt64.ofNat_toNat]
    simp only [hFits, hRoom, decide_false, Bool.false_eq_true, if_false, if_true]
    rw [bind_of_ok (Watched.add_of_lt (by omega)), bind_of_ok (Watched.add_of_lt hAdd), hStop,
      hSpan]
    rfl
  · have hPast : s.object.capacity.toNat <
        alignUp s.object.offset.toNat alignment.toNat + size.toNat := by omega
    simp only [hPast, hRoom, decide_true, if_true, if_false]
    rfl

/-- Another thread, a bad alignment, nothing to take, a block, no room for it. -/
theorem allocate_eq (hInside : s.object.offset ≤ s.object.capacity) :
    allocate baseAlignment thread size alignment s =
      let stop := alignUp s.object.offset.toNat alignment.toNat + size.toNat
      if s.object.ownerThread ≠ thread then
        .error (.ownership "scratch allocator accessed by a non-owner thread") s
      else if ¬ValidAlignment baseAlignment alignment then
        .error (.alignment "scratch allocator alignment is invalid") s
      else if size = 0 then .ok none s
      else if stop ≤ s.object.capacity.toNat then
        .ok (some (s.object.span size alignment))
          { s with object := { s.object with offset := UInt64.ofNat stop } }
      else .error (.overflow "scratch allocation exceeds its fixed capacity") s := by
  by_cases hOwner : s.object.ownerThread = thread
  · by_cases hAlignment : ValidAlignment baseAlignment alignment
    · by_cases hSize : size = 0
      · unfold allocate
        rw [bind_of_ok (by rw [assertOwner_eq, if_pos hOwner]),
          bind_of_ok (by rw [validateAlignment_eq, if_pos hAlignment]), if_pos hSize]
        simp [hOwner, hAlignment, hSize]
        rfl
      · rw [allocate_of_valid hOwner hInside hAlignment hSize]
        simp [hOwner, hAlignment, hSize]
    · unfold allocate
      rw [bind_of_ok (by rw [assertOwner_eq, if_pos hOwner]),
        bind_of_error (by rw [validateAlignment_eq, if_neg hAlignment])]
      simp [hOwner, hAlignment]
  · unfold allocate
    rw [bind_of_error (by rw [assertOwner_eq, if_neg hOwner])]
    simp [hOwner]

/-- `Reset` by the owner gives everything back. -/
theorem reset_eq :
    reset thread s =
      if s.object.ownerThread ≠ thread then
        .error (.ownership "scratch allocator accessed by a non-owner thread") s
      else .ok () { s with object := { s.object with offset := 0 } } := by
  unfold reset
  by_cases hOwner : s.object.ownerThread = thread
  · rw [bind_of_ok (by rw [assertOwner_eq, if_pos hOwner]), bind_of_ok (get_run s)]
    simp [hOwner]
    rfl
  · rw [bind_of_error (by rw [assertOwner_eq, if_neg hOwner])]
    simp [hOwner]

end Allocate

-- ---------------------------------------------------------------------------
-- Runs
-- ---------------------------------------------------------------------------

/-- What a caller may ask for. -/
inductive ScratchRequest where
  | allocate (size alignment : UInt64)
  | reset
deriving DecidableEq, Repr

/-- A method called on a thread. -/
structure ScratchCall where
  thread : Nat
  request : ScratchRequest
deriving DecidableEq, Repr

/-- An allocator and the non-empty spans that it has returned since the last `Reset`. -/
structure Scratch where
  machine : Watched ScratchAllocator
  blocks : List Block

/-- A new allocator has handed out nothing. -/
def Scratch.fresh (allocator : ScratchAllocator) : Scratch := ⟨⟨allocator, false⟩, []⟩

/-- A method of the allocator inside a run. -/
def onAllocator {α : Type} (m : ScratchM α) : EStateM ScratchAllocatorError Scratch α :=
  zoom Scratch.machine (fun s machine => { s with machine }) id m

/-- A call, and what it changes about the spans that are out. -/
def perform (baseAlignment : UInt64) (call : ScratchCall) :
    EStateM ScratchAllocatorError Scratch Unit :=
  match call.request with
  | .allocate size alignment => do
    let span ← onAllocator (allocate baseAlignment call.thread size alignment)
    modify fun s =>
      { s with blocks := (span.map (·.block alignment)).toList ++ s.blocks }
  | .reset => do
    onAllocator (reset call.thread)
    modify fun s => { s with blocks := [] }

/-- An allocator of the given capacity and owner whose arithmetic has been exact. -/
structure Scratch.Sound (capacity : UInt64) (owner : Nat) (s : Scratch) : Prop where
  capacity_eq : s.machine.object.capacity = capacity
  owner_eq : s.machine.object.ownerThread = owner
  exact : s.machine.wrapped = false
  valid : (s.machine.object.arena s.blocks).Valid capacity.toNat

section Runs

variable {baseAlignment capacity size alignment : UInt64} {owner thread : Nat} {s : Scratch}
  {call : ScratchCall}

/-- A new allocator is sound. -/
theorem sound_fresh {allocator : ScratchAllocator}
    (h : construct owner capacity = .ok allocator) :
    (Scratch.fresh allocator).Sound capacity owner := by
  unfold construct validateCapacity at h
  by_cases hOutside : capacity = 0 ∨ capacity > MAX_SCRATCH_ALLOCATOR_CAPACITY
  · simp [hOutside] at h
    cases h
  · simp only [hOutside, if_false] at h
    obtain rfl := Except.ok.inj h
    exact ⟨rfl, rfl, rfl, Arena.valid_empty _⟩

/-- A call of a method that returns, and one of a method that throws. -/
theorem onAllocator_ok {α : Type} {m : ScratchM α} {a : α} {machine : Watched ScratchAllocator}
    (h : m s.machine = .ok a machine) : onAllocator m s = .ok a { s with machine } :=
  zoom_of_ok h

/-- A call that throws. -/
theorem onAllocator_error {α : Type} {m : ScratchM α} {e : ScratchAllocatorError}
    (h : m s.machine = .error e s.machine) : onAllocator m s = .error e s :=
  zoom_of_error h

/-- No more is taken than there is. -/
theorem Scratch.Sound.inside (h : s.Sound capacity owner) :
    s.machine.object.offset ≤ s.machine.object.capacity := by
  have hOffset := h.valid.offset_le
  rw [UInt64.le_iff_toNat_le, h.capacity_eq]
  exact hOffset

/-- The state after the owner has taken a block. -/
def Scratch.taken (s : Scratch) (size alignment : UInt64) : Scratch :=
  let arena := (s.machine.object.arena s.blocks).take size.toNat alignment.toNat
  { machine := { s.machine with
      object := { s.machine.object with offset := UInt64.ofNat arena.offset } }
    blocks := arena.blocks }

/-- The span is the block that the arena takes. -/
theorem block_span
    (hRoom : alignUp s.machine.object.offset.toNat alignment.toNat + size.toNat ≤
      capacity.toNat) :
    (s.machine.object.span size alignment).block alignment =
      (s.machine.object.arena s.blocks).next size.toNat alignment.toNat := by
  have hCapacity := capacity.toNat_lt
  have hStart : (UInt64.ofNat (alignUp s.machine.object.offset.toNat alignment.toNat)).toNat =
      alignUp s.machine.object.offset.toNat alignment.toNat := by
    rw [UInt64.toNat_ofNat']
    omega
  simp only [Span.block, ScratchAllocator.span, hStart]
  rfl

/-- What a call does to a sound allocator. -/
theorem perform_allocate_eq (hSound : s.Sound capacity owner) :
    perform baseAlignment ⟨thread, .allocate size alignment⟩ s =
      if owner ≠ thread then
        .error (.ownership "scratch allocator accessed by a non-owner thread") s
      else if ¬ValidAlignment baseAlignment alignment then
        .error (.alignment "scratch allocator alignment is invalid") s
      else if size = 0 then .ok () s
      else if alignUp s.machine.object.offset.toNat alignment.toNat + size.toNat ≤
          capacity.toNat then
        .ok () (s.taken size alignment)
      else .error (.overflow "scratch allocation exceeds its fixed capacity") s := by
  have hCall : allocate baseAlignment thread size alignment s.machine = _ :=
    allocate_eq hSound.inside
  rw [hSound.owner_eq, hSound.capacity_eq] at hCall
  unfold perform
  by_cases hOwner : owner = thread
  · by_cases hAlignment : ValidAlignment baseAlignment alignment
    · by_cases hSize : size = 0
      · simp [hOwner, hAlignment, hSize] at hCall
        simp only [hOwner, hAlignment, hSize, ne_eq, not_true_eq_false, if_false, if_true]
        rw [bind_of_ok (onAllocator_ok hCall)]
        rfl
      · by_cases hRoom : alignUp s.machine.object.offset.toNat alignment.toNat + size.toNat ≤
            capacity.toNat
        · simp only [hOwner, hAlignment, hSize, hRoom, ne_eq, not_true_eq_false, if_false,
            if_true] at hCall
          simp only [hOwner, hAlignment, hSize, hRoom, ne_eq, not_true_eq_false, if_false, if_true]
          rw [bind_of_ok (onAllocator_ok hCall)]
          show EStateM.Result.ok () _ = _
          rw [Option.map_some, Option.toList_some, block_span hRoom]
          rfl
        · simp [hOwner, hAlignment, hSize, hRoom] at hCall
          simp [hOwner, hAlignment, hSize, hRoom]
          exact bind_of_error (onAllocator_error hCall)
    · simp [hOwner, hAlignment] at hCall
      simp [hOwner, hAlignment]
      exact bind_of_error (onAllocator_error hCall)
  · simp [hOwner] at hCall
    simp [hOwner]
    exact bind_of_error (onAllocator_error hCall)

/-- A reset forgets the blocks. -/
theorem perform_reset_eq (hSound : s.Sound capacity owner) :
    perform baseAlignment ⟨thread, .reset⟩ s =
      if owner ≠ thread then
        .error (.ownership "scratch allocator accessed by a non-owner thread") s
      else .ok () { machine := { s.machine with object := { s.machine.object with offset := 0 } }
                    blocks := [] } := by
  have hCall : reset thread s.machine = _ := reset_eq
  rw [hSound.owner_eq] at hCall
  unfold perform
  by_cases hOwner : owner = thread
  · simp [hOwner] at hCall
    simp only [hOwner, ne_eq, not_true_eq_false, if_false]
    rw [bind_of_ok (onAllocator_ok hCall)]
    rfl
  · simp [hOwner] at hCall
    simp [hOwner]
    exact bind_of_error (onAllocator_error hCall)

/-- A block is taken from what is left. -/
theorem Scratch.Sound.taken (hSound : s.Sound capacity owner) (hAlignment : alignment ≠ 0)
    (hRoom : alignUp s.machine.object.offset.toNat alignment.toNat + size.toNat ≤
      capacity.toNat) : (s.taken size alignment).Sound capacity owner := by
  have hCapacity := capacity.toNat_lt
  have hValid := hSound.valid.take (toNat_pos_of_ne hAlignment) hRoom
  have hArena : (s.taken size alignment).machine.object.arena (s.taken size alignment).blocks =
      (s.machine.object.arena s.blocks).take size.toNat alignment.toNat := by
    have hOffset : (UInt64.ofNat
        (alignUp s.machine.object.offset.toNat alignment.toNat + size.toNat)).toNat =
        alignUp s.machine.object.offset.toNat alignment.toNat + size.toNat := by
      rw [UInt64.toNat_ofNat']
      omega
    simp only [Scratch.taken, ScratchAllocator.arena, Arena.take, hOffset]
  refine ⟨hSound.capacity_eq, hSound.owner_eq, hSound.exact, ?_⟩
  rw [hArena]
  exact hValid

/-- One call keeps the allocator sound, and changes nothing if it throws. -/
theorem perform_step (baseAlignment : UInt64) (call : ScratchCall)
    (hSound : s.Sound capacity owner) :
    match perform baseAlignment call s with
    | .ok _ next => next.Sound capacity owner
    | .error _ next => next = s := by
  obtain ⟨thread, request⟩ := call
  cases request with
  | allocate size alignment =>
    rw [perform_allocate_eq hSound]
    split_ifs with hOwner hAlignment hSize hRoom
    · rfl
    · exact hSound
    · exact hSound.taken hAlignment.1 hRoom
    · rfl
    · rfl
  | reset =>
    rw [perform_reset_eq hSound]
    split_ifs with hOwner
    · rfl
    · exact ⟨hSound.capacity_eq, hSound.owner_eq, hSound.exact, Arena.valid_empty _⟩

/-- By induction on the calls. -/
theorem sound_afterCalls (hSound : s.Sound capacity owner) (calls : List ScratchCall) :
    (afterCalls (perform baseAlignment) s calls).Sound capacity owner := by
  refine afterCalls_invariant _ hSound fun done call rest _ hDone => ?_
  have hStep := perform_step baseAlignment call hDone
  unfold finalState
  cases hCall : perform baseAlignment call (afterCalls (perform baseAlignment) s done) with
  | ok a next => rwa [hCall] at hStep
  | error e next =>
    rw [hCall] at hStep
    exact hStep ▸ hDone

/-- The owner is refused for want of room alone. -/
theorem owner_throws_iff (hSound : s.Sound capacity owner)
    (hAlignment : ValidAlignment baseAlignment alignment) :
    Throws (fun _ => True) (perform baseAlignment ⟨owner, .allocate size alignment⟩) s ↔
      size ≠ 0 ∧
        ¬(s.machine.object.arena s.blocks).Fits capacity.toNat size.toNat alignment.toNat := by
  have hFits : (s.machine.object.arena s.blocks).Fits capacity.toNat size.toNat
      alignment.toNat ↔ _ := Arena.fits_iff (toNat_pos_of_ne hAlignment.1)
  have hCall : perform baseAlignment ⟨owner, .allocate size alignment⟩ s = _ :=
    perform_allocate_eq hSound
  simp only [ScratchAllocator.arena] at hFits
  by_cases hSize : size = 0
  · simp [hAlignment, hSize] at hCall
    simp [hSize, not_throws_of_ok hCall]
  · rw [ScratchAllocator.arena, hFits]
    by_cases hRoom : alignUp s.machine.object.offset.toNat alignment.toNat + size.toNat ≤
        capacity.toNat
    · simp [hAlignment, hSize, hRoom] at hCall
      simp [hRoom, not_throws_of_ok hCall]
    · simp [hAlignment, hSize, hRoom] at hCall
      simp [hSize, hRoom, throws_of_error_iff hCall]

/--
**Scratch allocations.** After any calls on an allocator, the spans that its owner was given
since the last `Reset` have no byte in common, lie inside the capacity and start at multiples
of their alignment, and no operation has wrapped. The next call changes the offset only if it
returns, and the owner is refused a block only where none fits.
-/
theorem scratch_blocks_apart {baseAlignment capacity : UInt64} {owner : Nat}
    {allocator : ScratchAllocator} (hNew : construct owner capacity = .ok allocator)
    (calls : List ScratchCall) :
    let s := afterCalls (perform baseAlignment) (.fresh allocator) calls
    s.blocks.Pairwise Block.Apart ∧
      (∀ block ∈ s.blocks, block.start + block.size ≤ capacity.toNat ∧
        block.alignment ∣ block.start) ∧
      s.machine.wrapped = false ∧
      (∀ call, (finalState (perform baseAlignment call s)).machine.wrapped = false) ∧
      (∀ call e next, perform baseAlignment call s = .error e next →
        next.machine.object.offset = s.machine.object.offset) ∧
      ∀ size alignment, ValidAlignment baseAlignment alignment →
        (Throws (fun _ => True) (perform baseAlignment ⟨owner, .allocate size alignment⟩) s ↔
          size ≠ 0 ∧ ¬∃ start, s.machine.object.offset.toNat ≤ start ∧
            alignment.toNat ∣ start ∧ start + size.toNat ≤ capacity.toNat) := by
  intro s
  have hSound : s.Sound capacity owner := sound_afterCalls (sound_fresh hNew) calls
  refine ⟨hSound.valid.apart, ?_, hSound.exact, ?_, ?_, ?_⟩
  · intro block hBlock
    have hBelow := hSound.valid.below block hBlock
    have hInside := hSound.valid.offset_le
    exact ⟨by omega, hSound.valid.aligned block hBlock⟩
  · intro call
    exact (sound_afterCalls hSound [call]).exact
  · intro call e next hCall
    have hStep := perform_step baseAlignment call hSound
    rw [hCall] at hStep
    rw [hStep]
  · intro size alignment hAlignment
    exact owner_throws_iff hSound hAlignment

end Runs

/-- Sixty-four bytes on thread 7: three bytes, eight aligned to eight, a request of the largest
size there is, which fails, and one of another thread. -/
def sampleScratchCalls : List ScratchCall :=
  [⟨7, .allocate 3 1⟩, ⟨7, .allocate 8 8⟩, ⟨7, .allocate 0xFFFFFFFFFFFFFFFF 16⟩,
    ⟨8, .allocate 1 1⟩, ⟨7, .allocate 5 4⟩]

theorem scratch_blocks_apart_sample :
    construct 7 64 = .ok ⟨64, 0, 7⟩ ∧
      (afterCalls (perform 16) (.fresh ⟨64, 0, 7⟩) sampleScratchCalls).blocks.Pairwise
        Block.Apart ∧
      (afterCalls (perform 16) (.fresh ⟨64, 0, 7⟩) sampleScratchCalls).machine =
        ⟨⟨64, 21, 7⟩, false⟩ ∧
      Throws (fun _ => True) (perform 16 ⟨7, .allocate 44 1⟩)
        (afterCalls (perform 16) (.fresh ⟨64, 0, 7⟩) sampleScratchCalls) := by
  have hNew : construct 7 64 = .ok ⟨64, 0, 7⟩ := by decide
  have hMachine : (afterCalls (perform 16) (.fresh ⟨64, 0, 7⟩) sampleScratchCalls).machine =
      ⟨⟨64, 21, 7⟩, false⟩ := by decide +kernel
  obtain ⟨hApart, -, -, -, -, hThrows⟩ :=
    @scratch_blocks_apart 16 _ _ _ hNew sampleScratchCalls
  refine ⟨hNew, hApart, hMachine, (hThrows 44 1 (by decide)).mpr ⟨by decide, ?_⟩⟩
  rw [hMachine]
  rintro ⟨start, hFrom, -, hRoom⟩
  simp at hFrom hRoom
  omega

end Ithax.Threading
