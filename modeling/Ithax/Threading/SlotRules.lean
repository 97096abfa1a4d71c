import Ithax.Threading.FrameSlot

/-!
# What a section of the pool does

One lemma per section of `FrameSlotPool`: the slot it changes, if it changes one, and
how it ends; and `System.section_of_step`, which says once for all invariants what an
action of the two threads does.
-/

namespace Ithax.Threading

/-- The slot as the producer acquires it. -/
def SlotStorage.claimed (slot : SlotStorage) : SlotStorage :=
  { slot with
    generation := slot.generation + 1, payloadSize := 0, wasCancelled := false, state := .writing }

namespace FrameSlotPool

variable {p p' : FrameSlotPool} {thread : ThreadId} {token : FrameSlotToken} {slot : SlotStorage}
  {role : Role} {id : Nat}

/-- The thread that is registered for a role. -/
def threadOf (p : FrameSlotPool) : Role → Option ThreadId
  | .producer => p.producerThread
  | .consumer => p.consumerThread

/-- The token of a slot as it is now. -/
def tokenOf (p : FrameSlotPool) (id : Nat) (slot : SlotStorage) : FrameSlotToken :=
  { slotId := id, generation := slot.generation, poolId := p.poolId }

/-- A call begins, or ends. -/
def withOperations (p : FrameSlotPool) (n : Nat) : FrameSlotPool := { p with activeOperations := n }

/-- The first call of a role registers its thread. -/
def withThread (p : FrameSlotPool) (thread : ThreadId) : Role → FrameSlotPool
  | .producer => { p with producerThread := some thread }
  | .consumer => { p with consumerThread := some thread }

/-- Changing a slot changes the slots, and nothing else of the pool. -/
@[simp] theorem setSlot_slots : (p.setSlot id slot).slots = p.slots.set id slot := rfl

@[simp] theorem setSlot_closed : (p.setSlot id slot).closed = p.closed := rfl

@[simp] theorem setSlot_poolId : (p.setSlot id slot).poolId = p.poolId := rfl

@[simp] theorem setSlot_activeOperations :
    (p.setSlot id slot).activeOperations = p.activeOperations := rfl

@[simp] theorem setSlot_threadOf : (p.setSlot id slot).threadOf role = p.threadOf role := by
  cases role <;> rfl

/-- Registering a thread changes nothing else of the pool. -/
@[simp] theorem withThread_slots : (p.withThread thread role).slots = p.slots := by
  cases role <;> rfl

@[simp] theorem withThread_closed : (p.withThread thread role).closed = p.closed := by
  cases role <;> rfl

@[simp] theorem withThread_poolId : (p.withThread thread role).poolId = p.poolId := by
  cases role <;> rfl

@[simp] theorem withThread_activeOperations :
    (p.withThread thread role).activeOperations = p.activeOperations := by
  cases role <;> rfl

-- ---------------------------------------------------------------------------
-- Tokens
-- ---------------------------------------------------------------------------

/-- A token is accepted when it is of this pool and of the slot's current use. -/
theorem slotForToken_eq_ok_iff : p.slotForToken token = .ok slot ↔
    p.slots[token.slotId]? = some slot ∧ token.poolId = p.poolId ∧ token.generation ≠ 0 ∧
      slot.generation = token.generation := by
  unfold slotForToken
  rcases p.slots[token.slotId]? with - | found
  · exact ⟨nofun, nofun⟩
  · by_cases hInvalid : token.poolId ≠ p.poolId ∨ token.generation = 0
    · simp only [hInvalid, if_true]
      refine ⟨nofun, fun ⟨_, hPool, hGeneration, _⟩ => ?_⟩
      exact (hInvalid.elim (· hPool) hGeneration).elim
    · by_cases hSame : found.generation = token.generation
      · simp only [hInvalid, hSame, ne_eq, not_true_eq_false, if_false, Except.ok.injEq,
          Option.some.injEq]
        push Not at hInvalid
        constructor
        · rintro rfl
          exact ⟨rfl, hInvalid.1, hInvalid.2, hSame⟩
        · exact And.left
      · simp only [hInvalid, hSame, ne_eq, not_false_eq_true, if_true, if_false]
        refine ⟨nofun, fun ⟨hSlot, _, _, hCurrent⟩ => ?_⟩
        exact (hSame (Option.some.inj hSlot ▸ hCurrent)).elim

/-- An accepted token is the slot's token as it is now. -/
theorem eq_tokenOf (h : p.slotForToken token = .ok slot) : token = p.tokenOf token.slotId slot := by
  obtain ⟨-, hPool, -, hGeneration⟩ := slotForToken_eq_ok_iff.mp h
  rw [tokenOf, hGeneration, ← hPool]

/-- A role's calls come from its thread. -/
theorem assertThread_eq_ok_iff :
    p.assertThread role thread = .ok () ↔ p.threadOf role = some thread := by
  cases role <;> simp only [assertThread, assertProducer, assertConsumer, threadOf] <;> split <;>
    simp_all

/-- A slot is held by a role when its thread shows the current token of a slot in that role's
state. -/
theorem heldSlot_eq_ok_iff {what : String} : p.heldSlot role thread token what = .ok slot ↔
    p.threadOf role = some thread ∧ p.slotForToken token = .ok slot ∧ slot.state = role.holds := by
  unfold heldSlot
  rcases hAssert : p.assertThread role thread with e | u
  · have hThread : p.threadOf role ≠ some thread := fun hSame => by
      rw [assertThread_eq_ok_iff.mpr hSame] at hAssert
      exact nomatch hAssert
    simp [bind, Except.bind, hThread]
  · have hThread := assertThread_eq_ok_iff.mp hAssert
    rcases p.slotForToken token with e | found
    · simp [bind, Except.bind]
    · by_cases hState : found.state = role.holds
      · simp only [bind, Except.bind, pure, Except.pure, hState, ne_eq, not_true_eq_false,
          if_false, Except.ok.injEq]
        exact ⟨fun hEq => ⟨hThread, hEq, hEq ▸ hState⟩, fun h => h.2.1⟩
      · simp only [bind, Except.bind, hState, ne_eq, not_false_eq_true, if_true, throw, throwThe,
          MonadExceptOf.throw, Except.ok.injEq]
        exact ⟨nofun, fun ⟨_, hEq, hHeld⟩ => (hState (hEq ▸ hHeld)).elim⟩

/-- A slot that is in use as the lease on it says. -/
def InUse (p : FrameSlotPool) (role : Role) (thread : ThreadId) (token : FrameSlotToken)
    (slot : SlotStorage) : Prop :=
  p.threadOf role = some thread ∧ p.slotForToken token = .ok slot ∧ slot.state = role.holds

/-- A write goes into the slot that the producer holds. -/
theorem writePayload_eq_ok {write : List UInt8 → List UInt8}
    (h : p.writePayload thread token write = .ok p') :
    ∃ slot, p.InUse .producer thread token slot ∧
      p' = p.setSlot token.slotId { slot with payload := write slot.payload } := by
  unfold writePayload at h
  rcases hHeld : p.heldSlot .producer thread token "frame slot is not writable" with e | slot
  · rw [hHeld] at h
    exact nomatch h
  · rw [hHeld] at h
    exact ⟨slot, heldSlot_eq_ok_iff.mp hHeld, (Except.ok.inj h).symm⟩

/-- So does the size. -/
theorem setWritePayloadSize_eq_ok {size : Nat}
    (h : p.setWritePayloadSize thread token size = .ok p') :
    ∃ slot, p.InUse .producer thread token slot ∧
      p' = p.setSlot token.slotId { slot with payloadSize := size } := by
  unfold setWritePayloadSize at h
  rcases hHeld : p.heldSlot .producer thread token "frame slot is not writable" with e | slot
  · rw [hHeld] at h
    exact nomatch h
  · by_cases hSize : p.payloadCapacity < size
    · simp [hHeld, bind, Except.bind, hSize, throw, throwThe, MonadExceptOf.throw] at h
    · simp only [hHeld, bind, Except.bind, hSize, if_false, pure, Except.pure, Except.ok.injEq] at h
      exact ⟨slot, heldSlot_eq_ok_iff.mp hHeld, h.symm⟩

/-- A slot is published by the producer that holds it, while the pool is open. -/
theorem publishWrite_eq_ok_iff : p.publishWrite thread token = .ok p' ↔
    p.closed = false ∧ ∃ slot, p.InUse .producer thread token slot ∧
      p' = p.setSlot token.slotId { slot with state := .published } := by
  unfold publishWrite
  rcases hHeld : p.heldSlot .producer thread token "frame slot is not writable" with e | slot
  · refine ⟨nofun, fun ⟨_, slot, hUse, _⟩ => ?_⟩
    rw [heldSlot_eq_ok_iff.mpr hUse] at hHeld
    exact nomatch hHeld
  · have hUse := heldSlot_eq_ok_iff.mp hHeld
    by_cases hClosed : p.closed = true
    · simp [bind, Except.bind, hClosed, throw, throwThe, MonadExceptOf.throw]
    · simp only [bind, Except.bind, hClosed, Bool.false_eq_true, if_false, pure, Except.pure,
        Except.ok.injEq, true_and]
      constructor
      · rintro rfl
        exact ⟨slot, hUse, rfl⟩
      · rintro ⟨other, hOther, rfl⟩
        obtain rfl := Except.ok.inj (hUse.2.1.symm.trans hOther.2.1)
        rfl

/-- `CancelWrite` and `ReleaseRead` succeed on a slot in use, and free it. -/
theorem back_eq_ok_iff : p.back thread role token = .ok p' ↔
    ∃ slot, p.InUse role thread token slot ∧
      p' = p.setSlot token.slotId (slot.freed (role = .producer)) := by
  have hBack : ∀ what, (do
      let slot ← p.heldSlot role thread token what
      return p.setSlot token.slotId (slot.freed (role = .producer))) = Except.ok p' ↔
      ∃ slot, p.InUse role thread token slot ∧
        p' = p.setSlot token.slotId (slot.freed (role = .producer)) := by
    intro what
    rcases hHeld : p.heldSlot role thread token what with e | slot
    · refine ⟨nofun, fun ⟨slot, hUse, _⟩ => ?_⟩
      rw [heldSlot_eq_ok_iff.mpr hUse] at hHeld
      exact nomatch hHeld
    · have hUse := heldSlot_eq_ok_iff.mp hHeld
      constructor
      · intro hEq
        exact ⟨slot, hUse, (Except.ok.inj hEq).symm⟩
      · rintro ⟨other, hOther, rfl⟩
        obtain rfl := Except.ok.inj (hUse.2.1.symm.trans hOther.2.1)
        rfl
  cases role with
  | producer => exact hBack _
  | consumer => exact hBack _

-- ---------------------------------------------------------------------------
-- Acquiring
-- ---------------------------------------------------------------------------

/-- No other thread is registered for the role. -/
def Admits (p : FrameSlotPool) (role : Role) (thread : ThreadId) : Prop :=
  p.threadOf role = none ∨ p.threadOf role = some thread

/-- The producer's own thread is let in. -/
theorem registerProducer_of_admits (h : p.Admits .producer thread) :
    p.registerProducer thread = .ok (p.withThread thread .producer) := by
  unfold registerProducer
  rcases h with hNone | hSame
  · rw [show p.producerThread = none from hNone]
    rfl
  · rw [show p.producerThread = some thread from hSame]
    have hEq : p.withThread thread .producer = p := by
      rw [withThread, ← show p.producerThread = some thread from hSame]
    simp [hEq]

/-- So is the consumer's. -/
theorem registerConsumer_of_admits (h : p.Admits .consumer thread) :
    p.registerConsumer thread = .ok (p.withThread thread .consumer) := by
  unfold registerConsumer
  rcases h with hNone | hSame
  · rw [show p.consumerThread = none from hNone]
    rfl
  · rw [show p.consumerThread = some thread from hSame]
    have hEq : p.withThread thread .consumer = p := by
      rw [withThread, ← show p.consumerThread = some thread from hSame]
    simp [hEq]

/-- The slot that was found is free. -/
theorem findFreeSlot_eq_some (h : p.findFreeSlot = some (id, slot)) :
    p.slots[id]? = some slot ∧ slot.state = .free := by
  unfold findFreeSlot at h
  obtain ⟨found, hFound, hRest⟩ := Option.bind_eq_some_iff.mp h
  obtain ⟨held, hHeld, hEq⟩ := Option.bind_eq_some_iff.mp hRest
  obtain ⟨rfl, rfl⟩ := Prod.mk.inj (Option.some.inj hEq)
  refine ⟨hHeld, ?_⟩
  obtain ⟨hLt, hFree, -⟩ := List.findIdx?_eq_some_iff_getElem.mp hFound
  rw [List.getElem?_eq_getElem hLt] at hHeld
  rw [Option.some.inj hHeld] at hFree
  exact of_decide_eq_true hFree

/-- How the producer's call ends, with the pool otherwise as it is in `p`. -/
inductive Claims (p : FrameSlotPool) : FrameSlotPool × Outcome (Option FrameLease) → Prop where
  | nothing : Claims p (p, .returned none)
  | threw (e : FrameSlotError) : Claims p (p, .threw e)
  | claimed {id : Nat} {slot : SlotStorage} (hOpen : p.closed = false)
      (hSlot : p.slots[id]? = some slot) (hFree : slot.state = .free) :
      Claims p (p.setSlot id slot.claimed,
        .returned (some { pool := true, token := p.tokenOf id slot.claimed, active := true }))

/-- How the consumer's call on `token` ends. -/
inductive Grants (p : FrameSlotPool) (token : FrameSlotToken) :
    FrameSlotPool × Outcome (Option FrameLease) → Prop where
  | nothing : Grants p token (p, .returned none)
  | threw (e : FrameSlotError) : Grants p token (p, .threw e)
  | granted {slot : SlotStorage} (hSlot : p.slotForToken token = .ok slot)
      (hPublished : slot.state = .published) :
      Grants p token (p.setSlot token.slotId { slot with state := .reading },
        .returned (some { pool := true, token, active := true }))

/-- `TryAcquireWrite` gives a free slot, or nothing, or throws. -/
theorem tryAcquireWrite_claims (h : p.Admits .producer thread) :
    Claims (p.withThread thread .producer) (p.tryAcquireWrite thread) := by
  unfold tryAcquireWrite
  rw [registerProducer_of_admits h]
  generalize p.withThread thread .producer = q
  simp only
  split
  · exact .nothing
  · rename_i hClosed
    split
    · exact .nothing
    · rename_i id slot hFind
      obtain ⟨hSlot, hFree⟩ := findFreeSlot_eq_some hFind
      unfold claimSlot
      by_cases hLast : slot.generation = MAX_GENERATION
      · rw [if_pos hLast]
        exact .threw _
      · rw [if_neg hLast]
        exact .claimed (Bool.eq_false_of_not_eq_true hClosed) hSlot hFree

/-- A call that ends counts itself out. -/
theorem finish_eq {α : Type} (h : p.activeOperations ≠ 0) (result : Outcome α) :
    p.finish result = (p.withOperations (p.activeOperations - 1), result) := by
  rw [finish, if_neg h]
  rfl

/-- `AcquireWrite` waits, or does what `TryAcquireWrite` does. -/
theorem acquireWriteLoop_claims (h : p.activeOperations ≠ 0) :
    p.acquireWriteLoop = (p, .blocked) ∨
      Claims (p.withOperations (p.activeOperations - 1)) p.acquireWriteLoop := by
  unfold acquireWriteLoop
  split
  · rw [finish_eq h]
    exact Or.inr .nothing
  · rename_i hClosed
    split
    · exact Or.inl rfl
    · rename_i id slot hFind
      obtain ⟨hSlot, hFree⟩ := findFreeSlot_eq_some hFind
      refine Or.inr ?_
      unfold claimSlot
      by_cases hLast : slot.generation = MAX_GENERATION
      · rw [if_pos hLast]
        simp only
        rw [finish_eq h]
        exact .threw _
      · rw [if_neg hLast]
        simp only
        rw [finish_eq (p := p.setSlot id _) h]
        exact .claimed (p := p.withOperations _) (Bool.eq_false_of_not_eq_true hClosed) hSlot hFree

/-- `AcquireWrite` counts itself in and goes to its loop. -/
theorem acquireWrite_eq (h : p.Admits .producer thread) : p.acquireWrite thread =
    ((p.withOperations (p.activeOperations + 1)).withThread thread .producer).acquireWriteLoop := by
  have hAdmits : (p.withOperations (p.activeOperations + 1)).Admits .producer thread := h
  unfold acquireWrite
  simp only
  rw [show ({ p with activeOperations := p.activeOperations + 1 } : FrameSlotPool) =
    p.withOperations (p.activeOperations + 1) from rfl, registerProducer_of_admits hAdmits]

/-- The consumer waits only for a slot that is being written, in a pool that is open. -/
theorem acquireReadLoop_grants (h : p.activeOperations ≠ 0) (token : FrameSlotToken)
    (blocking : Bool) : (p.acquireReadLoop token blocking = (p, .blocked) ∧ blocking = true) ∨
      Grants (p.withOperations (p.activeOperations - 1)) token
        (p.acquireReadLoop token blocking) := by
  unfold acquireReadLoop
  split
  · rw [finish_eq h]
    exact Or.inr (.threw _)
  · rename_i slot hSlot
    split
    · rename_i hPublished
      rw [finish_eq (p := p.setSlot _ _) h]
      exact Or.inr (.granted (p := p.withOperations _) hSlot hPublished)
    · split
      · split
        · rw [finish_eq h]
          exact Or.inr .nothing
        · rename_i hWait
          exact Or.inl ⟨rfl, by simp_all⟩
      · split
        · rw [finish_eq h]
          exact Or.inr .nothing
        · rw [finish_eq h]
          exact Or.inr (.threw _)

/-- The reads throw for a token that is not current, and else go to their loop. -/
theorem acquireReadImpl_eq (h : p.Admits .consumer thread) (token : FrameSlotToken)
    (blocking : Bool) : (∃ e, p.slotForToken token = .error e ∧
        p.acquireReadImpl thread token blocking = (p, .threw e)) ∨
      (∃ slot, p.slotForToken token = .ok slot) ∧ p.acquireReadImpl thread token blocking =
        ((p.withOperations (p.activeOperations + 1)).withThread thread .consumer).acquireReadLoop
          token blocking := by
  have hAdmits : (p.withOperations (p.activeOperations + 1)).Admits .consumer thread := h
  have hSame : (p.withOperations (p.activeOperations + 1)).slotForToken token =
    p.slotForToken token := rfl
  unfold acquireReadImpl
  simp only
  rw [show ({ p with activeOperations := p.activeOperations + 1 } : FrameSlotPool) =
    p.withOperations (p.activeOperations + 1) from rfl, hSame]
  rcases p.slotForToken token with e | slot
  · refine Or.inl ⟨e, rfl, ?_⟩
    simp only
    rw [finish_eq (Nat.succ_ne_zero _)]
    rfl
  · refine Or.inr ⟨⟨slot, rfl⟩, ?_⟩
    simp only
    rw [registerConsumer_of_admits hAdmits]

/-- The three ends of `DiscardPublished`. -/
theorem discardPublished_cases (h : p.Admits .consumer thread) (token : FrameSlotToken) :
    (∃ e, p.slotForToken token = .error e ∧
      p.discardPublished thread token = (p, .threw e)) ∨
    (∃ e, p.discardPublished thread token = (p.withThread thread .consumer, .threw e)) ∨
    ∃ slot, p.closed = true ∧ p.slotForToken token = .ok slot ∧ slot.state = .published ∧
      p.discardPublished thread token =
        ((p.withThread thread .consumer).setSlot token.slotId (slot.freed false), .returned ()) := by
  unfold discardPublished
  rcases p.slotForToken token with e | slot
  · exact Or.inl ⟨e, rfl, rfl⟩
  · refine Or.inr ?_
    rw [registerConsumer_of_admits h]
    simp only
    split
    · exact Or.inl ⟨_, rfl⟩
    · rename_i hMay
      push Not at hMay
      exact Or.inr ⟨slot, hMay.1, rfl, hMay.2, rfl⟩

end FrameSlotPool

-- ---------------------------------------------------------------------------
-- Sections
-- ---------------------------------------------------------------------------

/-- What each action does in a system that has not terminated, and when it may be taken: a
call of a thread that waits in another call has to wait with it. -/
inductive System.Section (s : System) : Action → System → Prop where
  | tryAcquireWrite (hIdle : s.writeWaits = false) :
      Section s .tryAcquireWrite
        (s.acquiredWrite (s.pool.tryAcquireWrite (s.threads .producer)))
  | acquireWrite (hIdle : s.writeWaits = false) :
      Section s .acquireWrite (s.acquiredWrite (s.pool.acquireWrite (s.threads .producer)))
  | resumeWrite (hWaits : s.writeWaits = true) :
      Section s .resumeWrite (s.acquiredWrite s.pool.acquireWriteLoop)
  | write {i offset : Nat} {bytes : List UInt8} {s' : System}
      (hIdle : s.writeWaits = false)
      (hRoom : offset + bytes.length ≤ s.pool.payloadCapacity)
      (hUse : s.useWrite i (fun token => s.pool.writePayload (s.threads .producer) token
        (FrameSlotPool.copyBytes offset bytes)) = some s') :
      Section s (.write i offset bytes) s'
  | setPayloadSize {i size : Nat} {s' : System} (hIdle : s.writeWaits = false)
      (hUse : s.useWrite i (fun token =>
        s.pool.setWritePayloadSize (s.threads .producer) token size) = some s') :
      Section s (.setPayloadSize i size) s'
  | publish {i : Nat} {lease : FrameLease} (hIdle : s.writeWaits = false)
      (hLease : (s.leases .producer)[i]? = some lease) :
      Section s (.publish i) (s.publish i lease)
  | tryAcquireRead {token : FrameSlotToken} (hIdle : s.readWaits = none) :
      Section s (.tryAcquireRead token)
        (s.acquiredRead token (s.pool.tryAcquireRead (s.threads .consumer) token))
  | acquireRead {token : FrameSlotToken} (hIdle : s.readWaits = none) :
      Section s (.acquireRead token)
        (s.acquiredRead token (s.pool.acquireRead (s.threads .consumer) token))
  | resumeRead {token : FrameSlotToken} (hWaits : s.readWaits = some token) :
      Section s .resumeRead (s.acquiredRead token (s.pool.acquireReadLoop token true))
  | discardPublished {token : FrameSlotToken} (hIdle : s.readWaits = none) :
      Section s (.discardPublished token) (s.discardPublished token)
  | lease {role : Role} {op : LeaseOp} {s' : System} (hIdle : s.waits role = false)
      (hLease : s.leaseStep role op = some s') : Section s (.lease role op) s'
  | close : Section s .close { s with pool := s.pool.close }

/-- **What a section does.** Every action of a thread is one of the sections. -/
theorem System.section_of_step {s s' : System} {a : Action} (hRunning : s.terminated = false)
    (hStep : s.step a = some s') : s.Section a s' := by
  unfold System.step at hStep
  rw [if_neg (by rw [hRunning]; decide)] at hStep
  cases a with
  | tryAcquireWrite | acquireWrite =>
    obtain ⟨hIdle, hNext⟩ := Option.ite_none_left_eq_some.mp hStep
    obtain rfl := Option.some.inj hNext
    constructor
    exact Bool.eq_false_of_not_eq_true hIdle
  | resumeWrite =>
    obtain ⟨hWaits, hNext⟩ := Option.ite_none_right_eq_some.mp hStep
    obtain rfl := Option.some.inj hNext
    exact .resumeWrite hWaits
  | write i offset bytes =>
    obtain ⟨hMay, hUse⟩ := Option.ite_none_left_eq_some.mp hStep
    rw [not_or] at hMay
    exact .write (Bool.eq_false_of_not_eq_true hMay.1) (Nat.not_lt.mp hMay.2) hUse
  | setPayloadSize i size =>
    obtain ⟨hIdle, hUse⟩ := Option.ite_none_left_eq_some.mp hStep
    exact .setPayloadSize (Bool.eq_false_of_not_eq_true hIdle) hUse
  | publish i =>
    obtain ⟨hIdle, hNext⟩ := Option.ite_none_left_eq_some.mp hStep
    obtain ⟨lease, hLease, rfl⟩ := Option.map_eq_some_iff.mp hNext
    exact .publish (Bool.eq_false_of_not_eq_true hIdle) hLease
  | tryAcquireRead token | acquireRead token | discardPublished token =>
    obtain ⟨hIdle, hNext⟩ := Option.ite_none_left_eq_some.mp hStep
    obtain rfl := Option.some.inj hNext
    constructor
    exact Option.not_isSome_iff_eq_none.mp hIdle
  | resumeRead =>
    obtain ⟨token, hWaits, rfl⟩ := Option.map_eq_some_iff.mp hStep
    exact .resumeRead hWaits
  | lease role op =>
    obtain ⟨hIdle, hLease⟩ := Option.ite_none_left_eq_some.mp hStep
    exact .lease (Bool.eq_false_of_not_eq_true hIdle) hLease
  | close =>
    obtain rfl := Option.some.inj hStep
    exact .close

end Ithax.Threading
