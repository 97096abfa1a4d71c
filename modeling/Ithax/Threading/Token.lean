import Ithax.Threading.Lease
import Ithax.Threading.SlotLife

/-!
# Tokens

A token is issued once, and granted or discarded once; what a read lease shows is what
was in the slot when its token was published; and a token that is not the current one
of a slot of the pool gets nobody anywhere.

## Results

* `System.Sound.turn`    — every section is a turn of the slots.
* `rejects_of_invalid`   — every use of a token that is not current throws.
* `tokens_of_run`        — the tokens along every run.
-/

namespace Ithax.Threading

open Ithax.Lib

-- ---------------------------------------------------------------------------
-- Sections are turns
-- ---------------------------------------------------------------------------

/-- One section takes the system to the next as a turn of the slots. -/
def System.Turns (s s' : System) : Prop :=
  s'.pool.poolId = s.pool.poolId ∧
    Turn s.pool.poolId s.pool.slots s.history s'.pool.slots s'.history

namespace System.Sound

variable {s s' : System} {role : Role} {lease : FrameLease} {i : Nat} {q : FrameSlotPool}
  {token : FrameSlotToken} {r : FrameSlotPool × Outcome (Option FrameLease)}

/-- A section that changes no slot. -/
theorem turns_idle (hSlots : s'.pool.slots = s.pool.slots) (hPool : s'.pool.poolId = s.pool.poolId)
    (hHistory : s'.history = s.history) : s.Turns s' := by
  refine ⟨hPool, ?_⟩
  rw [hSlots, hHistory]
  exact .idle

/-- A section that claims a free slot. -/
theorem turns_acquiredWrite (hSlots : q.slots = s.pool.slots) (hPool : q.poolId = s.pool.poolId)
    (hClaims : q.Claims r) : s.Turns (s.acquiredWrite r) := by
  cases hClaims with
  | nothing => exact turns_idle hSlots hPool rfl
  | threw e => exact turns_idle hSlots hPool rfl
  | @claimed id slot hOpen hSlot hFree =>
    refine ⟨hPool, ?_⟩
    show Turn _ _ _ (q.slots.set id slot.claimed) { s.history with
      issued := s.history.issued ++ [slotToken q.poolId id slot.claimed] }
    rw [hSlots, hPool]
    exact .claim (hSlots ▸ hSlot) hFree

/-- A section that grants a read. -/
theorem turns_acquiredRead (hSlots : q.slots = s.pool.slots) (hPool : q.poolId = s.pool.poolId)
    (hGrants : q.Grants token r) : s.Turns (s.acquiredRead token r) := by
  cases hGrants with
  | nothing => exact turns_idle hSlots hPool rfl
  | threw e => exact turns_idle hSlots hPool rfl
  | @granted slot hSlot hPublished =>
    have hAt := (FrameSlotPool.slotForToken_eq_ok_iff.mp hSlot).1
    have hToken : token = slotToken s.pool.poolId token.slotId slot := by
      rw [← hPool]
      exact FrameSlotPool.eq_tokenOf hSlot
    refine ⟨hPool, ?_⟩
    show Turn _ _ _ (q.slots.set token.slotId _) { s.history with
      granted := s.history.granted ++ [token] }
    have hGrant : Turn s.pool.poolId s.pool.slots s.history
        (s.pool.slots.set token.slotId { slot with state := .reading }) { s.history with
          granted := s.history.granted ++ [slotToken s.pool.poolId token.slotId slot] } :=
      .grant (hSlots ▸ hAt) hPublished
    rw [← hToken] at hGrant
    rw [hSlots]
    exact hGrant

/-- A lease that is given back. -/
theorem turns_giveBack (hSound : s.Sound) (hLease : (s.leases role)[i]? = some lease) :
    s.Turns (s.giveBack role i lease) := by
  unfold System.giveBack FrameLease.giveBack
  by_cases hUsable : lease.usable = true
  · rw [if_pos hUsable]
    have hActive := (Bool.and_eq_true_iff.mp hUsable).1
    obtain ⟨slot, hUse⟩ := hSound.leased.inUse (List.mem_of_getElem? hLease) hActive
    have hAt := (FrameSlotPool.slotForToken_eq_ok_iff.mp hUse.2.1).1
    rw [FrameSlotPool.back_eq_ok_iff.mpr ⟨slot, hUse, rfl⟩]
    cases role with
    | producer => exact ⟨rfl, .cancel hAt hUse.2.2⟩
    | consumer => exact ⟨rfl, .release hAt hUse.2.2⟩
  · rw [if_neg hUsable]
    exact turns_idle rfl rfl rfl

/-- The leases are no part of a turn. -/
theorem turns_setLeases {leases : List FrameLease} (h : s.Turns s') :
    s.Turns (s'.setLeases role leases) := h

/-- What a lease does on its own. -/
theorem turns_leaseStep (hSound : s.Sound) {op : LeaseOp}
    (hStep : s.leaseStep role op = some s') : s.Turns s' := by
  cases op with
  | construct =>
    obtain rfl := Option.some.inj hStep
    exact turns_idle rfl rfl rfl
  | moveConstruct j =>
    obtain ⟨other, hOther, hNext⟩ := Option.bind_eq_some_iff.mp hStep
    obtain rfl := Option.some.inj hNext
    exact turns_idle rfl rfl rfl
  | moveAssign i j =>
    obtain ⟨lease, hLease, hRest⟩ := Option.bind_eq_some_iff.mp hStep
    obtain ⟨other, hOther, hNext⟩ := Option.bind_eq_some_iff.mp hRest
    split at hNext
    · obtain rfl := Option.some.inj hNext
      exact turns_idle rfl rfl rfl
    · simp only at hNext
      split at hNext <;> obtain rfl := Option.some.inj hNext
      · exact turns_giveBack hSound hLease
      · exact turns_setLeases (turns_giveBack hSound hLease)
  | giveBack i =>
    obtain ⟨lease, hLease, hNext⟩ := Option.bind_eq_some_iff.mp hStep
    obtain rfl := Option.some.inj hNext
    exact turns_giveBack hSound hLease
  | destroy i =>
    obtain ⟨lease, hLease, hNext⟩ := Option.bind_eq_some_iff.mp hStep
    simp only at hNext
    split at hNext <;> obtain rfl := Option.some.inj hNext
    · exact turns_giveBack hSound hLease
    · exact turns_setLeases (turns_giveBack hSound hLease)

/-- A use of a slot that changes neither its state nor its generation. -/
theorem turns_useWrite {use : FrameSlotToken → Except FrameSlotError FrameSlotPool}
    (hUse : ∀ token pool, use token = .ok pool → ∃ slot next,
      s.pool.InUse .producer (s.threads .producer) token slot ∧ next.state = slot.state ∧
      next.generation = slot.generation ∧ pool = s.pool.setSlot token.slotId next)
    (hStep : s.useWrite i use = some s') : s.Turns s' := by
  obtain ⟨lease, hLease, hNext⟩ := Option.bind_eq_some_iff.mp hStep
  unfold FrameLease.withToken at hNext
  split at hNext
  · rename_i pool hOk
    obtain rfl := Option.some.inj hNext
    split at hOk
    · obtain ⟨slot, next, hInUse, hState, hGeneration, rfl⟩ := hUse _ _ hOk
      have hAt := (FrameSlotPool.slotForToken_eq_ok_iff.mp hInUse.2.1).1
      exact ⟨rfl, .store hAt hInUse.2.2 (hState.trans hInUse.2.2) hGeneration⟩
    · exact nomatch hOk
  · obtain rfl := Option.some.inj hNext
    exact turns_idle rfl rfl rfl

/-- A slot is published. -/
theorem turns_publish (i : Nat) (lease : FrameLease) : s.Turns (s.publish i lease) := by
  unfold System.publish FrameLease.withToken
  split
  · rename_i pool hOk
    split at hOk
    · obtain ⟨-, slot, hInUse, rfl⟩ := FrameSlotPool.publishWrite_eq_ok_iff.mp hOk
      have hAt := (FrameSlotPool.slotForToken_eq_ok_iff.mp hInUse.2.1).1
      have hToken : slotToken s.pool.poolId lease.token.slotId slot = lease.token :=
        (FrameSlotPool.eq_tokenOf hInUse.2.1).symm
      have hPublish : Turn s.pool.poolId s.pool.slots s.history
          (s.pool.slots.set lease.token.slotId { slot with state := .published }) { s.history with
            published := s.history.published ++ [{
              token := slotToken s.pool.poolId lease.token.slotId slot
              payloadSize := slot.payloadSize, payload := slot.payload }] } :=
        .publish hAt hInUse.2.2
      rw [hToken] at hPublish
      refine ⟨rfl, ?_⟩
      show Turn _ _ _ _ (s.history.publish s.pool lease.token)
      rw [History.publish, hInUse.2.1]
      exact hPublish
    · exact nomatch hOk
  · exact turns_idle rfl rfl rfl

/-- A published slot is discarded. -/
theorem turns_discardPublished (hSound : s.Sound) (token : FrameSlotToken) :
    s.Turns (s.discardPublished token) := by
  unfold System.discardPublished
  rcases FrameSlotPool.discardPublished_cases (hSound.leased.admits .consumer) token with
    ⟨e, -, hThrew⟩ | ⟨e, hThrew⟩ | ⟨slot, -, hSlot, hPublished, hDone⟩
  · rw [hThrew]
    exact turns_idle rfl rfl rfl
  · rw [hThrew]
    exact turns_idle rfl rfl rfl
  · rw [hDone]
    have hAt := (FrameSlotPool.slotForToken_eq_ok_iff.mp hSlot).1
    have hToken : slotToken s.pool.poolId token.slotId slot = token :=
      (FrameSlotPool.eq_tokenOf hSlot).symm
    have hDiscard : Turn s.pool.poolId s.pool.slots s.history
        (s.pool.slots.set token.slotId (slot.freed false)) { s.history with
          discarded := s.history.discarded ++ [slotToken s.pool.poolId token.slotId slot] } :=
      .discard hAt hPublished
    rw [hToken] at hDiscard
    exact ⟨rfl, hDiscard⟩

/-- The waiting part of `AcquireWrite`. -/
theorem turns_acquireWriteLoop (hSlots : q.slots = s.pool.slots) (hPool : q.poolId = s.pool.poolId)
    (hSome : q.activeOperations ≠ 0) : s.Turns (s.acquiredWrite q.acquireWriteLoop) := by
  rcases FrameSlotPool.acquireWriteLoop_claims hSome with hBlocked | hClaims
  · rw [hBlocked]
    exact turns_idle hSlots hPool rfl
  · exact turns_acquiredWrite (q := q.withOperations (q.activeOperations - 1)) hSlots hPool hClaims

/-- The waiting part of a read. -/
theorem turns_acquireReadLoop (hSlots : q.slots = s.pool.slots) (hPool : q.poolId = s.pool.poolId)
    (hSome : q.activeOperations ≠ 0) (token : FrameSlotToken) (blocking : Bool) :
    s.Turns (s.acquiredRead token (q.acquireReadLoop token blocking)) := by
  rcases FrameSlotPool.acquireReadLoop_grants hSome token blocking with ⟨hBlocked, -⟩ | hGrants
  · rw [hBlocked]
    exact turns_idle hSlots hPool rfl
  · exact turns_acquiredRead (q := q.withOperations (q.activeOperations - 1)) hSlots hPool hGrants

/-- A whole read. -/
theorem turns_acquireReadImpl (hSound : s.Sound) (token : FrameSlotToken) (blocking : Bool) :
    s.Turns (s.acquiredRead token
      (s.pool.acquireReadImpl (s.threads .consumer) token blocking)) := by
  rcases FrameSlotPool.acquireReadImpl_eq (hSound.leased.admits .consumer) token blocking with
    ⟨e, -, hThrew⟩ | ⟨-, hLoop⟩
  · rw [hThrew]
    exact turns_idle rfl rfl rfl
  · rw [hLoop]
    exact turns_acquireReadLoop (q := (s.pool.withOperations (s.pool.activeOperations + 1)).withThread
      (s.threads .consumer) .consumer) rfl rfl (Nat.succ_ne_zero _) token blocking

/-- Every section is a turn of the slots. -/
theorem turn (h : s.Sound) {a : Action} (hStep : s.step a = some s') : s.Turns s' := by
  cases System.section_of_step h.running hStep with
  | tryAcquireWrite hIdle =>
    exact turns_acquiredWrite FrameSlotPool.withThread_slots FrameSlotPool.withThread_poolId
      (FrameSlotPool.tryAcquireWrite_claims (h.leased.admits .producer))
  | acquireWrite hIdle =>
    rw [FrameSlotPool.acquireWrite_eq (h.leased.admits .producer)]
    exact turns_acquireWriteLoop rfl rfl (Nat.succ_ne_zero _)
  | resumeWrite hWaits =>
    refine turns_acquireWriteLoop rfl rfl ?_
    rw [h.operations, hWaits, Nat.add_comm]
    exact Nat.succ_ne_zero _
  | @write i offset bytes _ hIdle hRoom hUse =>
    refine turns_useWrite (fun token pool hOk => ?_) hUse
    obtain ⟨slot, hInUse, rfl⟩ := FrameSlotPool.writePayload_eq_ok hOk
    exact ⟨slot, { slot with payload := FrameSlotPool.copyBytes offset bytes slot.payload },
      hInUse, rfl, rfl, rfl⟩
  | @setPayloadSize i size _ hIdle hUse =>
    refine turns_useWrite (fun token pool hOk => ?_) hUse
    obtain ⟨slot, hInUse, rfl⟩ := FrameSlotPool.setWritePayloadSize_eq_ok hOk
    exact ⟨slot, { slot with payloadSize := size }, hInUse, rfl, rfl, rfl⟩
  | publish hIdle hLease => exact turns_publish _ _
  | tryAcquireRead hIdle => exact turns_acquireReadImpl h _ false
  | acquireRead hIdle => exact turns_acquireReadImpl h _ true
  | resumeRead hWaits =>
    refine turns_acquireReadLoop rfl rfl ?_ _ true
    rw [h.operations, hWaits]
    exact Nat.succ_ne_zero _
  | discardPublished hIdle => exact turns_discardPublished h _
  | lease hIdle hLease => exact turns_leaseStep h hLease
  | close => exact turns_idle rfl rfl rfl

end System.Sound

-- ---------------------------------------------------------------------------
-- Tokens that are not current
-- ---------------------------------------------------------------------------

/-- Every operation on the token throws, and the pool stays as it is. -/
structure FrameSlotPool.Rejects (p : FrameSlotPool) (token : FrameSlotToken) : Prop where
  acquireRead : ∀ thread blocking, ∃ e, p.acquireReadImpl thread token blocking = (p, .threw e)
  discardPublished : ∀ thread, ∃ e, p.discardPublished thread token = (p, .threw e)
  writePayload : ∀ thread write, ∃ e, p.writePayload thread token write = .error e
  writePayloadSize : ∀ thread, ∃ e, p.writePayloadSize thread token = .error e
  setWritePayloadSize : ∀ thread size, ∃ e, p.setWritePayloadSize thread token size = .error e
  publishWrite : ∀ thread, ∃ e, p.publishWrite thread token = .error e
  cancelWrite : ∀ thread, ∃ e, p.cancelWrite thread token = .error e
  readPayload : ∀ thread, ∃ e, p.readPayload thread token = .error e
  readPayloadSize : ∀ thread, ∃ e, p.readPayloadSize thread token = .error e
  releaseRead : ∀ thread, ∃ e, p.releaseRead thread token = .error e

/-- The token is of another pool, of no generation, of no slot, or has been left behind. -/
def FrameSlotPool.Invalid (p : FrameSlotPool) (token : FrameSlotToken) : Prop :=
  token.poolId ≠ p.poolId ∨ token.generation = 0 ∨ p.slots.length ≤ token.slotId ∨
    ∃ slot, p.slots[token.slotId]? = some slot ∧ token.generation < slot.generation

/-- An invalid token finds no slot. -/
theorem FrameSlotPool.slotForToken_of_invalid {p : FrameSlotPool} {token : FrameSlotToken}
    (h : p.Invalid token) : ∃ e, p.slotForToken token = .error e := by
  rcases hSlot : p.slotForToken token with e | slot
  · exact ⟨e, rfl⟩
  · obtain ⟨hAt, hPool, hGeneration, hCurrent⟩ := slotForToken_eq_ok_iff.mp hSlot
    rcases h with hOther | hZero | hRange | ⟨found, hFound, hStale⟩
    · exact absurd hPool hOther
    · exact absurd hZero hGeneration
    · obtain ⟨hLt, -⟩ := List.getElem?_eq_some_iff.mp hAt
      exact absurd hLt (Nat.not_lt.mpr hRange)
    · obtain rfl := Option.some.inj (hAt.symm.trans hFound)
      exact absurd hCurrent.symm (Nat.ne_of_lt hStale)

/-- So every use of it throws. -/
theorem FrameSlotPool.rejects_of_invalid {p : FrameSlotPool} {token : FrameSlotToken}
    (h : p.Invalid token) : p.Rejects token := by
  obtain ⟨e, hError⟩ := slotForToken_of_invalid h
  -- the token is looked up after the thread in the uses of a lease, and before it elsewhere
  have hHeld : ∀ role thread what, ∃ e, p.heldSlot role thread token what = .error e := by
    intro role thread what
    rcases hSlot : p.heldSlot role thread token what with e' | slot
    · exact ⟨e', rfl⟩
    · obtain ⟨-, hFound, -⟩ := heldSlot_eq_ok_iff.mp hSlot
      exact nomatch hError.symm.trans hFound
  have hBind : ∀ {α : Type} {x : Except FrameSlotError SlotStorage}
      {f : SlotStorage → Except FrameSlotError α}, (∃ e, x = .error e) →
      ∃ e, (x >>= f) = .error e := by
    rintro α x f ⟨e', rfl⟩
    exact ⟨e', rfl⟩
  refine ⟨fun thread blocking => ⟨e, ?_⟩, fun thread => ⟨e, ?_⟩, fun thread _ => hBind (hHeld _ _ _),
    fun thread => hBind (hHeld _ _ _), fun thread _ => hBind (hHeld _ _ _),
    fun thread => hBind (hHeld _ _ _), fun thread => hBind (hHeld _ _ _),
    fun thread => hBind (hHeld _ _ _), fun thread => hBind (hHeld _ _ _),
    fun thread => hBind (hHeld _ _ _)⟩
  · have hSame : (p.withOperations (p.activeOperations + 1)).slotForToken token = .error e := hError
    unfold acquireReadImpl
    simp only
    rw [show ({ p with activeOperations := p.activeOperations + 1 } : FrameSlotPool) =
      p.withOperations (p.activeOperations + 1) from rfl, hSame]
    simp only
    rw [finish_eq (Nat.succ_ne_zero _)]
    rfl
  · unfold discardPublished
    rw [hError]

/-- A call that waits for a token that has been left behind throws when it goes on. -/
theorem acquireReadLoop_of_invalid {p : FrameSlotPool} {token : FrameSlotToken}
    (h : p.Invalid token) (hSome : p.activeOperations ≠ 0) :
    ∃ e, p.acquireReadLoop token true =
      (p.withOperations (p.activeOperations - 1), .threw e) := by
  obtain ⟨e, hError⟩ := FrameSlotPool.slotForToken_of_invalid h
  refine ⟨e, ?_⟩
  unfold FrameSlotPool.acquireReadLoop
  rw [hError]
  exact FrameSlotPool.finish_eq hSome _

-- ---------------------------------------------------------------------------
-- Runs
-- ---------------------------------------------------------------------------

section Run

variable {slotCount payloadCapacity poolId : Nat} {threads : Role → ThreadId}
  {actions : List Action} {s : System}

/-- The tokens of a system are where the slots say. -/
abbrev System.Traced (s : System) : Prop :=
  Threading.Traced s.pool.poolId s.pool.slots s.history

/-- The leases and the tokens along any run. -/
theorem System.Sound.traced_runEvents (hSound : s.Sound) (hTraced : s.Traced) {s' : System}
    (hRun : runEvents System.step s actions = some s') : s'.Sound ∧ s'.Traced := by
  refine runEvents_invariant (I := fun s => s.Sound ∧ s.Traced) (fun {b _ next} hBoth hStep => ?_)
    ⟨hSound, hTraced⟩ hRun
  obtain ⟨hPool, hTurn⟩ := hBoth.1.turn hStep
  have hNext := hBoth.2.turn hTurn
  rw [← hPool] at hNext
  exact ⟨hBoth.1.step hStep, hNext⟩

/-- A new pool has no history. -/
theorem traced_start {pool : FrameSlotPool}
    (h : FrameSlotPool.create slotCount payloadCapacity poolId = .ok pool) :
    System.Traced { pool, threads } := by
  obtain rfl := FrameSlotPool.create_eq_ok h
  refine ⟨nofun, List.nodup_nil, nofun, List.nodup_nil, nofun, List.nodup_nil,
    fun id slot hSlot hState => ?_⟩
  rw [List.eq_of_mem_replicate (List.mem_of_getElem? hSlot)] at hState
  exact hState.elim nofun nofun

/-- What holds of the history holds along every run. -/
theorem traced_of_run (h : run slotCount payloadCapacity poolId threads actions = some s) :
    s.Traced := by
  obtain ⟨pool, hCreate, hRun⟩ := run_eq_some h
  exact ((sound_start hCreate).traced_runEvents (traced_start hCreate) hRun).2

/-- In every state of every run, no token has been issued, published, granted or
discarded twice, an active read lease shows the frame as it was published, and every
operation on a token that is not current throws and changes no slot. -/
theorem tokens_of_run (h : run slotCount payloadCapacity poolId threads actions = some s) :
    s.history.issued.Nodup ∧ (s.history.published.map PublishedFrame.token).Nodup ∧
    (s.history.granted ++ s.history.discarded).Nodup ∧
    (∀ lease ∈ s.leases .consumer, lease.active = true →
      ∃ frame ∈ s.history.published, frame.token = lease.token ∧
        s.pool.readPayloadSize (s.threads .consumer) lease.token = .ok frame.payloadSize ∧
        s.pool.readPayload (s.threads .consumer) lease.token =
          .ok (frame.payload.take frame.payloadSize)) ∧
    (∀ token, s.pool.Invalid token → s.pool.Rejects token ∧ (s.readWaits = some token →
      ∃ p e, s.pool.acquireReadLoop token true = (p, .threw e) ∧ p.slots = s.pool.slots)) := by
  have hSound := sound_of_run h
  have hTraced := traced_of_run h
  refine ⟨hTraced.issuedOnce, hTraced.publishedOnce, hTraced.spentOnce,
    fun lease hLease hActive => ?_, fun token hInvalid =>
      ⟨FrameSlotPool.rejects_of_invalid hInvalid, fun hWaits => ?_⟩⟩
  · obtain ⟨slot, hUse⟩ := hSound.leased.inUse hLease hActive
    have hAt := (FrameSlotPool.slotForToken_eq_ok_iff.mp hUse.2.1).1
    have hToken : lease.token = slotToken s.pool.poolId lease.token.slotId slot :=
      FrameSlotPool.eq_tokenOf hUse.2.1
    have hReading : slot.state = .reading := hUse.2.2
    obtain ⟨frame, hFrame, hSame⟩ := hTraced.shown _ slot hAt (Or.inr hReading)
    have hPast := hTraced.published frame hFrame
    rw [hSame] at hPast
    have hBusy : slot.state ≠ .free := by
      rw [hReading]
      decide
    obtain ⟨hSize, hPayload⟩ := (hPast.current hAt).2.2 hBusy
    refine ⟨frame, hFrame, hSame.trans hToken.symm, ?_, ?_⟩
    · unfold FrameSlotPool.readPayloadSize
      rw [FrameSlotPool.heldSlot_eq_ok_iff.mpr hUse, ← hSize]
      rfl
    · unfold FrameSlotPool.readPayload
      rw [FrameSlotPool.heldSlot_eq_ok_iff.mpr hUse, ← hSize, ← hPayload]
      rfl
  · have hSome : s.pool.activeOperations ≠ 0 := by
      rw [hSound.operations, hWaits]
      exact Nat.succ_ne_zero _
    obtain ⟨e, hThrew⟩ := acquireReadLoop_of_invalid hInvalid hSome
    exact ⟨_, e, hThrew, rfl⟩

/-- A slot is written, read and given back, and written again. -/
def recycleActions : List Action :=
  [.acquireWrite, .write 0 0 [7, 8, 9], .setPayloadSize 0 2, .publish 0, .acquireRead ⟨0, 1, 1⟩,
    .lease .consumer (.destroy 0), .acquireWrite, .write 1 0 [1, 2], .setPayloadSize 1 1,
    .publish 1, .acquireRead ⟨0, 2, 1⟩]

/-- A slot that is used twice: the token of its first use has become invalid. -/
theorem tokens_of_run_recycleActions : ∃ s,
    run 1 3 1 (fun role => if role = .producer then 10 else 20) recycleActions = some s ∧
    s.history.granted = [⟨0, 1, 1⟩, ⟨0, 2, 1⟩] ∧ s.pool.Rejects ⟨0, 1, 1⟩ ∧
    ∃ frame ∈ s.history.published, frame.token = ⟨0, 2, 1⟩ ∧
      s.pool.readPayload 20 ⟨0, 2, 1⟩ = .ok (frame.payload.take frame.payloadSize) := by
  obtain ⟨s, hRun, hGranted, hThread, ⟨slot, hSlot, hStale⟩, hLease⟩ : ∃ s,
      run 1 3 1 (fun role => if role = .producer then 10 else 20) recycleActions = some s ∧
      s.history.granted = [⟨0, 1, 1⟩, ⟨0, 2, 1⟩] ∧ s.threads .consumer = 20 ∧
      (∃ slot, s.pool.slots[0]? = some slot ∧ 1 < slot.generation) ∧
      ({ pool := true, token := ⟨0, 2, 1⟩, active := true } : FrameLease) ∈ s.leases .consumer :=
    ⟨_, rfl, rfl, rfl, ⟨_, rfl, by decide⟩, by decide⟩
  obtain ⟨-, -, -, hShown, hInvalid⟩ := tokens_of_run hRun
  obtain ⟨frame, hFrame, hToken, -, hPayload⟩ := hShown _ hLease rfl
  rw [hThread] at hPayload
  have hBehind : s.pool.Invalid ⟨0, 1, 1⟩ := Or.inr (Or.inr (Or.inr ⟨slot, hSlot, hStale⟩))
  exact ⟨s, hRun, hGranted, (hInvalid _ hBehind).1, frame, hFrame, hToken, hPayload⟩

end Run

end Ithax.Threading
