import Ithax.Threading.Token

/-!
# A cancelled write and its reader

`CancelWrite` leaves a note in the slot, `was_cancelled`, for the reader that waits for it,
and wakes that reader. The note is there until the slot is acquired again. The slot is free
from the cancellation on, so that can be before the reader has run.

## Results

* `Noted.turn`              — the note, or the newer generation, turn by turn.
* `cancelled_read_iff`      — the reader learns of the cancellation exactly if the producer
  was not given the slot in between.
-/

namespace Ithax.Threading

open Ithax.Lib

-- ---------------------------------------------------------------------------
-- The note in the slot
-- ---------------------------------------------------------------------------

section Slots

variable {poolId n : Nat} {slots slots' : List SlotStorage} {history history' : History}
  {token : FrameSlotToken}

/-- The slot as `CancelWrite` leaves it. -/
def SlotStorage.Cancelled (slot : SlotStorage) : Prop :=
  slot.state = .free ∧ slot.wasCancelled = true

/-- A token of the slot was issued after the first `n` tokens. -/
def History.ClaimedSince (history : History) (n id : Nat) : Prop :=
  ∃ token ∈ history.issued.drop n, token.slotId = id

/-- The slot of the token still carries the note, or it has been claimed since. -/
def Noted (poolId : Nat) (slots : List SlotStorage) (history : History) (token : FrameSlotToken)
    (n : Nat) : Prop :=
  n ≤ history.issued.length ∧
    (Current poolId slots token SlotStorage.Cancelled ∧ ¬history.ClaimedSince n token.slotId ∨
      Past poolId slots token (fun _ => False) ∧ history.ClaimedSince n token.slotId)

/-- A turn that is about a slot in use leaves the note, or the newer generation. -/
theorem Noted.set (h : Noted poolId slots history token n) {id : Nat} {slot next : SlotStorage}
    (hSlot : slots[id]? = some slot) (hBusy : slot.state ≠ .free)
    (hGeneration : next.generation = slot.generation) (hIssued : history'.issued = history.issued) :
    Noted poolId (slots.set id next) history' token n := by
  have hSame : history'.ClaimedSince n token.slotId ↔ history.ClaimedSince n token.slotId := by
    unfold History.ClaimedSince
    rw [hIssued]
  obtain ⟨hLength, hNoted⟩ := h
  refine ⟨hIssued ▸ hLength, ?_⟩
  rw [hSame]
  rcases hNoted with ⟨hCurrent, hNever⟩ | ⟨hPast, hClaimed⟩
  · exact Or.inl ⟨hCurrent.set hSlot fun _ hCancelled => absurd hCancelled.1 hBusy, hNever⟩
  · exact Or.inr ⟨hPast.set hSlot (Or.inr ⟨hGeneration, False.elim⟩), hClaimed⟩

theorem claimedSince_issue (hLength : n ≤ history.issued.length) (newer : FrameSlotToken)
    (id : Nat) :
    ({ history with issued := history.issued ++ [newer] } : History).ClaimedSince n id ↔
      history.ClaimedSince n id ∨ newer.slotId = id := by
  unfold History.ClaimedSince
  rw [List.drop_append_of_le_length hLength]
  constructor
  · rintro ⟨token, hMem, hId⟩
    rcases List.mem_append.mp hMem with hOld | hNew
    · exact Or.inl ⟨token, hOld, hId⟩
    · rw [List.mem_singleton.mp hNew] at hId
      exact Or.inr hId
  · rintro (⟨token, hMem, hId⟩ | hId)
    · exact ⟨token, List.mem_append_left _ hMem, hId⟩
    · exact ⟨newer, List.mem_append_right _ (List.mem_singleton_self _), hId⟩

/-- A claim of another slot changes nothing, one of this slot leaves the token behind. -/
theorem Noted.claim (h : Noted poolId slots history token n) {id : Nat} {slot : SlotStorage}
    (hSlot : slots[id]? = some slot) :
    Noted poolId (slots.set id slot.claimed)
      { history with issued := history.issued ++ [slotToken poolId id slot.claimed] } token n := by
  obtain ⟨hLength, hNoted⟩ := h
  have hNewer : slot.generation < slot.claimed.generation := Nat.lt_succ_self _
  refine ⟨?_, ?_⟩
  · rw [List.length_append]
    omega
  rw [claimedSince_issue hLength]
  rcases hNoted with ⟨hCurrent, hNever⟩ | ⟨hPast, hClaimed⟩
  · by_cases hSame : id = token.slotId
    · obtain ⟨found, hFound, hToken, -⟩ := hCurrent
      rw [hSame] at hSlot
      obtain rfl := Option.some.inj (hSlot.symm.trans hFound)
      refine Or.inr ⟨⟨slot.claimed, ?_, Or.inl ?_⟩, Or.inr hSame⟩
      · rw [hSame]
        exact List.getElem?_set_self (List.getElem?_eq_some_iff.mp hSlot).1
      · rw [hToken]
        exact hNewer
    · refine Or.inl ⟨hCurrent.set hSlot ?_, ?_⟩
      · intro hToken
        exact absurd (congrArg FrameSlotToken.slotId hToken).symm hSame
      · rintro (hClaimed | hId)
        · exact hNever hClaimed
        · exact hSame hId
  · exact Or.inr ⟨hPast.set hSlot (Or.inl hNewer), Or.inl hClaimed⟩

theorem Noted.turn (h : Noted poolId slots history token n)
    (hTurn : Turn poolId slots history slots' history') :
    Noted poolId slots' history' token n := by
  cases hTurn with
  | idle => exact h
  | claim hSlot hFree => exact h.claim hSlot
  | store hSlot hWriting hState hGeneration =>
    exact h.set hSlot (by rw [hWriting]; decide) hGeneration rfl
  | publish hSlot hWriting => exact h.set hSlot (by rw [hWriting]; decide) rfl rfl
  | cancel hSlot hWriting => exact h.set hSlot (by rw [hWriting]; decide) rfl rfl
  | grant hSlot hPublished => exact h.set hSlot (by rw [hPublished]; decide) rfl rfl
  | release hSlot hReading => exact h.set hSlot (by rw [hReading]; decide) rfl rfl
  | discard hSlot hPublished => exact h.set hSlot (by rw [hPublished]; decide) rfl rfl

/-- A slot after one slot was set: that one, or as it was. -/
theorem eq_or_eq_of_getElem?_set {id at' : Nat} {slot found next after : SlotStorage}
    (hSlot : slots[id]? = some slot) (hFound : slots[at']? = some found)
    (hAfter : (slots.set id next)[at']? = some after) :
    slot = found ∧ next = after ∨ after = found := by
  by_cases hSame : id = at'
  · subst hSame
    have hLt := (List.getElem?_eq_some_iff.mp hSlot).1
    rw [List.getElem?_set_self hLt] at hAfter
    exact Or.inl ⟨Option.some.inj (hSlot.symm.trans hFound), Option.some.inj hAfter⟩
  · rw [List.getElem?_set_ne hSame, hFound] at hAfter
    exact Or.inr (Option.some.inj hAfter).symm

/-- Only a cancellation takes a slot from being written to being free. -/
theorem Turn.cancelled (hTurn : Turn poolId slots history slots' history')
    (hBefore : Current poolId slots token fun slot => slot.state = .writing)
    (hAfter : Current poolId slots' token fun slot => slot.state = .free) :
    Current poolId slots' token SlotStorage.Cancelled ∧ history'.issued = history.issued := by
  obtain ⟨slot, hSlot, -, hWriting⟩ := hBefore
  obtain ⟨next, hNext, hToken, hFree⟩ := hAfter
  have hMoved : next ≠ slot := by
    rintro rfl
    rw [hWriting] at hFree
    cases hFree
  have hTouched : ∀ {id : Nat} {found after : SlotStorage}, slots[id]? = some found →
      (slots.set id after)[token.slotId]? = some next → found = slot ∧ after = next := by
    intro id found after hFound hSet
    exact (eq_or_eq_of_getElem?_set hFound hSlot hSet).resolve_right hMoved
  cases hTurn with
  | idle => exact absurd (Option.some.inj (hNext.symm.trans hSlot)) hMoved
  | claim hFound hStart | grant hFound hStart | release hFound hStart | discard hFound hStart =>
    -- these start from another state
    obtain ⟨rfl, -⟩ := hTouched hFound hNext
    rw [hWriting] at hStart
    cases hStart
  | store hFound hStart hState hGeneration =>
    obtain ⟨-, rfl⟩ := hTouched hFound hNext
    rw [hState] at hFree
    cases hFree
  | publish hFound hStart =>
    obtain ⟨-, rfl⟩ := hTouched hFound hNext
    cases hFree
  | cancel hFound hStart =>
    obtain ⟨rfl, rfl⟩ := hTouched hFound hNext
    exact ⟨⟨_, hNext, hToken, hFree, rfl⟩, rfl⟩

end Slots

-- ---------------------------------------------------------------------------
-- The reader
-- ---------------------------------------------------------------------------

namespace System

variable {s s' : System} {token : FrameSlotToken} {a : Action}

/-- The consumer is inside `AcquireRead` of the token, whose slot is being written, and the
step from `s` to `s'` frees the slot. -/
structure CancelsAwaited (token : FrameSlotToken) (s s' : System) : Prop where
  waits : s.readWaits = some token
  writing : ∃ slot, s.pool.slotForToken token = .ok slot ∧ slot.state = .writing
  freed : ∃ slot, s'.pool.slotForToken token = .ok slot ∧ slot.state = .free

theorem readWaits_acquiredWrite (s : System) (r : FrameSlotPool × Outcome (Option FrameLease)) :
    (s.acquiredWrite r).readWaits = s.readWaits := by
  rcases r with ⟨pool, (- | lease) | e | - | -⟩ <;> rfl

theorem readWaits_giveBack (s : System) (role : Role) (i : Nat) (lease : FrameLease) :
    (s.giveBack role i lease).readWaits = s.readWaits := by
  unfold giveBack
  split
  · rfl
  · rfl

theorem readWaits_leaseStep {role : Role} {op : LeaseOp} (h : s.leaseStep role op = some s') :
    s'.readWaits = s.readWaits := by
  cases op with
  | construct =>
    obtain rfl := Option.some.inj h
    rfl
  | moveConstruct j =>
    obtain ⟨other, -, hNext⟩ := Option.bind_eq_some_iff.mp h
    obtain rfl := Option.some.inj hNext
    rfl
  | moveAssign i j =>
    obtain ⟨lease, -, hRest⟩ := Option.bind_eq_some_iff.mp h
    obtain ⟨other, -, hNext⟩ := Option.bind_eq_some_iff.mp hRest
    split at hNext
    · obtain rfl := Option.some.inj hNext
      rfl
    · simp only at hNext
      split at hNext <;> obtain rfl := Option.some.inj hNext
      · exact readWaits_giveBack _ _ _ _
      · exact readWaits_giveBack _ _ _ _
  | giveBack i =>
    obtain ⟨lease, -, hNext⟩ := Option.bind_eq_some_iff.mp h
    obtain rfl := Option.some.inj hNext
    exact readWaits_giveBack _ _ _ _
  | destroy i =>
    obtain ⟨lease, -, hNext⟩ := Option.bind_eq_some_iff.mp h
    simp only at hNext
    split at hNext <;> obtain rfl := Option.some.inj hNext
    · exact readWaits_giveBack _ _ _ _
    · exact readWaits_giveBack _ _ _ _

theorem readWaits_useWrite {i : Nat}
    {use : FrameSlotToken → Except FrameSlotError FrameSlotPool}
    (h : s.useWrite i use = some s') : s'.readWaits = s.readWaits := by
  obtain ⟨lease, -, hNext⟩ := Option.bind_eq_some_iff.mp h
  split at hNext <;> obtain rfl := Option.some.inj hNext
  · rfl
  · rfl

/-- The reader waits on until it is its own turn. -/
theorem readWaits_step (hRunning : s.terminated = false) (hWaits : s.readWaits = some token)
    (hOther : a ≠ .resumeRead) (hStep : s.step a = some s') : s'.readWaits = some token := by
  rw [← hWaits]
  cases section_of_step hRunning hStep with
  | tryAcquireWrite hIdle | acquireWrite hIdle => exact readWaits_acquiredWrite _ _
  | resumeWrite hWaiting => exact readWaits_acquiredWrite _ _
  | write hIdle hRoom hUse => exact readWaits_useWrite hUse
  | setPayloadSize hIdle hUse => exact readWaits_useWrite hUse
  | publish hIdle hLease =>
    unfold publish
    split
    · rfl
    · rfl
  | tryAcquireRead hIdle | acquireRead hIdle | discardPublished hIdle =>
    -- the consumer is inside another call
    rw [hIdle] at hWaits
    cases hWaits
  | resumeRead hWaiting => exact absurd rfl hOther
  | lease hIdle hLease => exact readWaits_leaseStep hLease
  | close => rfl

/-- The consumer waits for the token, whose slot was freed by a cancellation. -/
structure AwaitsNoted (poolId n : Nat) (token : FrameSlotToken) (s : System) : Prop where
  sound : s.Sound
  waits : s.readWaits = some token
  pool : s.pool.poolId = poolId
  noted : Noted poolId s.pool.slots s.history token n

theorem AwaitsNoted.step {poolId n : Nat} (h : s.AwaitsNoted poolId n token)
    (hOther : a ≠ .resumeRead) (hStep : s.step a = some s') : s'.AwaitsNoted poolId n token := by
  obtain ⟨hPool, hTurn⟩ := h.sound.turn hStep
  rw [h.pool] at hPool hTurn
  exact ⟨h.sound.step hStep, readWaits_step h.sound.running h.waits hOther hStep, hPool,
    h.noted.turn hTurn⟩

theorem AwaitsNoted.run {poolId n : Nat} {actions : List Action} (h : s.AwaitsNoted poolId n token)
    (hOther : Action.resumeRead ∉ actions) (hRun : runEvents System.step s actions = some s') :
    s'.AwaitsNoted poolId n token := by
  induction actions generalizing s with
  | nil =>
    rw [runEvents_nil, Option.some.injEq] at hRun
    exact hRun ▸ h
  | cons a actions ih =>
    obtain ⟨mid, hOne, hRest⟩ := runEvents_cons_eq_some.mp hRun
    rw [List.mem_cons, not_or] at hOther
    exact ih (h.step (Ne.symm hOther.1) hOne) hOther.2 hRest

theorem CancelsAwaited.noted (h : CancelsAwaited token s s') (hSound : s.Sound)
    (hStep : s.step a = some s') (hOther : a ≠ .resumeRead) :
    s'.AwaitsNoted s.pool.poolId s'.history.issued.length token := by
  obtain ⟨hPool, hTurn⟩ := hSound.turn hStep
  obtain ⟨slot, hSlot, hWriting⟩ := h.writing
  obtain ⟨next, hNext, hFree⟩ := h.freed
  have hBefore : Current s.pool.poolId s.pool.slots token fun slot => slot.state = .writing :=
    ⟨slot, (FrameSlotPool.slotForToken_eq_ok_iff.mp hSlot).1, FrameSlotPool.eq_tokenOf hSlot,
      hWriting⟩
  have hAfter : Current s.pool.poolId s'.pool.slots token fun slot => slot.state = .free := by
    rw [← hPool]
    exact ⟨next, (FrameSlotPool.slotForToken_eq_ok_iff.mp hNext).1, FrameSlotPool.eq_tokenOf hNext,
      hFree⟩
  refine ⟨hSound.step hStep, readWaits_step hSound.running h.waits hOther hStep, hPool, ?_⟩
  refine ⟨Nat.le_refl _, Or.inl ⟨(hTurn.cancelled hBefore hAfter).1, ?_⟩⟩
  rintro ⟨newer, hMem, -⟩
  rw [List.drop_length] at hMem
  exact absurd hMem List.not_mem_nil

/-- What the reader comes to when it runs. -/
theorem AwaitsNoted.outcome_iff {poolId n : Nat} (h : s.AwaitsNoted poolId n token)
    (hGeneration : token.generation ≠ 0) :
    (s.pool.acquireReadLoop token true).2 = .returned none ↔
      ¬s.history.ClaimedSince n token.slotId := by
  have hSome : s.pool.activeOperations ≠ 0 := by
    rw [h.sound.operations, h.waits]
    exact Nat.succ_ne_zero _
  obtain ⟨-, ⟨⟨slot, hSlot, hToken, hFree, hNote⟩, hNever⟩ | ⟨⟨slot, hSlot, hNewer⟩, hClaimed⟩⟩ :=
    h.noted
  · refine iff_of_true ?_ hNever
    have hOwn : s.pool.slotForToken token = .ok slot := by
      refine FrameSlotPool.slotForToken_eq_ok_iff.mpr ⟨hSlot, ?_, hGeneration, ?_⟩
      · rw [h.pool]
        exact congrArg FrameSlotToken.poolId hToken
      · exact (congrArg FrameSlotToken.generation hToken).symm
    unfold FrameSlotPool.acquireReadLoop
    simp only [hOwn, hFree, hNote, reduceCtorEq, if_false, true_or, if_true]
    rw [FrameSlotPool.finish_eq hSome]
  · refine iff_of_false ?_ (not_not.mpr hClaimed)
    have hStale : token.generation < slot.generation := hNewer.resolve_right fun hNo => hNo.2
    obtain ⟨e, hThrew⟩ := acquireReadLoop_of_invalid
      (Or.inr (Or.inr (Or.inr ⟨slot, hSlot, hStale⟩))) hSome
    rw [hThrew]
    exact nofun

end System

section Run

variable {slotCount payloadCapacity poolId : Nat} {threads : Role → ThreadId}
  {before between : List Action} {a : Action} {s s' t : System} {token : FrameSlotToken}

/-- The step that cancels is not the reader's. -/
theorem ne_resumeRead_of_cancels (hSound : s.Sound) (hStep : s.step a = some s')
    (h : System.CancelsAwaited token s s') : a ≠ .resumeRead := by
  rintro rfl
  obtain ⟨slot, hSlot, hWriting⟩ := h.writing
  obtain ⟨next, hNext, hFree⟩ := h.freed
  have hSame : s'.pool.slotForToken token = s.pool.slotForToken token := by
    cases System.section_of_step hSound.running hStep with
    | @resumeRead waited hWaits =>
      rw [h.waits] at hWaits
      obtain rfl := Option.some.inj hWaits
      have hSome : s.pool.activeOperations ≠ 0 := by
        rw [hSound.operations, h.waits]
        exact Nat.succ_ne_zero _
      unfold FrameSlotPool.acquireReadLoop
      simp only [hSlot, hWriting, reduceCtorEq, if_false, if_true]
      by_cases hClosed : s.pool.closed = true
      · simp only [hClosed, true_or, if_true]
        rw [FrameSlotPool.finish_eq hSome, ← hSlot]
        rfl
      · simp only [hClosed, not_true_eq_false]
        exact hSlot
  rw [hSame, hSlot] at hNext
  rw [← Except.ok.inj hNext, hWriting] at hFree
  cases hFree

/-- Of a write that is cancelled while the consumer waits for it, in any run, the consumer
learns by `std::nullopt` when it runs next, whatever was done in between, exactly if the
slot was not given out again. -/
theorem cancelled_read_iff
    (hRun : run slotCount payloadCapacity poolId threads before = some s)
    (hStep : s.step a = some s') (hCancels : System.CancelsAwaited token s s')
    (hBetween : runEvents System.step s' between = some t)
    (hReader : Action.resumeRead ∉ between) :
    t.step .resumeRead = some (t.acquiredRead token (t.pool.acquireReadLoop token true)) ∧
    ((t.pool.acquireReadLoop token true).2 = .returned none ↔
      ∀ newer ∈ t.history.issued.drop s'.history.issued.length, newer.slotId ≠ token.slotId) := by
  have hSound := sound_of_run hRun
  obtain ⟨slot, hSlot, -⟩ := hCancels.writing
  have hGeneration := (FrameSlotPool.slotForToken_eq_ok_iff.mp hSlot).2.2.1
  have hNoted := (hCancels.noted hSound hStep (ne_resumeRead_of_cancels hSound hStep hCancels)).run
    hReader hBetween
  refine ⟨?_, ?_⟩
  · unfold System.step
    rw [if_neg (by rw [hNoted.sound.running]; decide)]
    simp only [hNoted.waits, Option.map_some]
  · rw [hNoted.outcome_iff hGeneration]
    unfold History.ClaimedSince
    push Not
    rfl

/-- The producer writes, the consumer waits for that slot, and the producer cancels. -/
def cancelActions : List Action := [.acquireWrite, .acquireRead ⟨0, 1, 1⟩]

/-- A producer on thread 10 and a consumer on thread 20. -/
def twoThreads : Role → ThreadId
  | .producer => 10
  | .consumer => 20

theorem cancelled_read_iff_cancelActions : ∃ s s' t,
    run 1 3 1 twoThreads cancelActions = some s ∧
    s.step (.lease .producer (.giveBack 0)) = some s' ∧
    runEvents System.step s' [.close] = some t ∧
    ((t.pool.acquireReadLoop ⟨0, 1, 1⟩ true).2 = .returned none ↔
      ∀ newer ∈ t.history.issued.drop s'.history.issued.length, newer.slotId ≠ 0) := by
  obtain ⟨s, hRun, s', hStep, t, hBetween, hCancels⟩ : ∃ s,
      run 1 3 1 twoThreads cancelActions = some s ∧
      ∃ s', s.step (.lease .producer (.giveBack 0)) = some s' ∧
      ∃ t, runEvents System.step s' [.close] = some t ∧
        System.CancelsAwaited ⟨0, 1, 1⟩ s s' :=
    ⟨_, rfl, _, rfl, _, rfl, rfl, ⟨_, rfl, rfl⟩, _, rfl, rfl⟩
  exact ⟨s, s', t, hRun, hStep, hBetween,
    (cancelled_read_iff hRun hStep hCancels hBetween (by simp)).2⟩

/-- The producer acquires the slot again before the consumer runs, which is told that its
token is stale. -/
theorem not_cancelled_read : ¬ ∀ (slotCount payloadCapacity poolId : Nat)
    (threads : Role → ThreadId) (before between : List Action) (a : Action) (s s' t : System)
    (token : FrameSlotToken), run slotCount payloadCapacity poolId threads before = some s →
      s.step a = some s' → System.CancelsAwaited token s s' →
      runEvents System.step s' between = some t → Action.resumeRead ∉ between →
      t.pool.closed = false → (t.pool.acquireReadLoop token true).2 = .returned none := by
  intro h
  obtain ⟨s, hRun, s', hStep, t, hBetween, hCancels, hOpen, hThrew⟩ : ∃ s,
      run 1 3 1 twoThreads cancelActions = some s ∧
      ∃ s', s.step (.lease .producer (.giveBack 0)) = some s' ∧
      ∃ t, runEvents System.step s' [.acquireWrite] = some t ∧
        System.CancelsAwaited ⟨0, 1, 1⟩ s s' ∧ t.pool.closed = false ∧
        (t.pool.acquireReadLoop ⟨0, 1, 1⟩ true).2 =
          .threw (.generation "frame slot token is stale") :=
    ⟨_, rfl, _, rfl, _, rfl, ⟨rfl, ⟨_, rfl, rfl⟩, _, rfl, rfl⟩, rfl, rfl⟩
  have hTold := h 1 3 1 twoThreads cancelActions [.acquireWrite] _ s s' t ⟨0, 1, 1⟩ hRun hStep
    hCancels hBetween (by simp) hOpen
  rw [hThrew] at hTold
  cases hTold

end Run

end Ithax.Threading
