import Ithax.Threading.SlotRules
import Mathlib.Tactic.Abel

/-!
# Leases and slots

The active leases of a pool are exactly its slots in use: the tokens of the active
write leases are the tokens of the slots being written, those of the active read
leases the tokens of the slots being read. So a lease can always be given back.

## Results

* `Leased.setSlot`        — one slot and the leases on it change together.
* `System.Leased.step`    — the invariant, section by section.
* `leases_of_run`         — slots, leases and waiting calls along every run.
-/

namespace Ithax.Threading

open Ithax.Lib

/-- The token of a lease that is active. -/
def FrameLease.live (lease : FrameLease) : Multiset FrameSlotToken :=
  if lease.active then {lease.token} else 0

/-- The tokens of the active leases. -/
def live (leases : List FrameLease) : Multiset FrameSlotToken := total FrameLease.live leases

namespace FrameSlotPool

variable {p p' : FrameSlotPool} {id : Nat} {slot next : SlotStorage} {state : FrameSlotState}
  {token : FrameSlotToken}

/-- The token of a slot that is in the given state. -/
def tokenIn (p : FrameSlotPool) (state : FrameSlotState) (id : Nat) (slot : SlotStorage) :
    Multiset FrameSlotToken :=
  if slot.state = state then {p.tokenOf id slot} else 0

/-- The tokens of the slots that are in the given state. -/
def held (p : FrameSlotPool) (state : FrameSlotState) : Multiset FrameSlotToken :=
  totalIdx (p.tokenIn state) p.slots

/-- What is held changes in one slot only. -/
theorem held_setSlot (hSlot : p.slots[id]? = some slot) (next : SlotStorage)
    (state : FrameSlotState) :
    (p.setSlot id next).held state + p.tokenIn state id slot =
      p.held state + p.tokenIn state id next :=
  totalIdx_set (p.tokenIn state) next hSlot

/-- A token is held when its slot is in the state. -/
theorem mem_held : token ∈ p.held state ↔
    ∃ slot, p.slots[token.slotId]? = some slot ∧ slot.state = state ∧
      token = p.tokenOf token.slotId slot := by
  rw [held, mem_totalIdx]
  constructor
  · rintro ⟨id, slot, hSlot, hMem⟩
    unfold tokenIn at hMem
    split at hMem
    · rename_i hState
      obtain rfl := Multiset.mem_singleton.mp hMem
      exact ⟨slot, hSlot, hState, rfl⟩
    · exact absurd hMem (Multiset.notMem_zero _)
  · rintro ⟨slot, hSlot, hState, hToken⟩
    refine ⟨token.slotId, slot, hSlot, ?_⟩
    rw [tokenIn, if_pos hState]
    exact Multiset.mem_singleton.mpr hToken

/-- A slot is in a state once or not at all. -/
theorem count_held (hSlot : p.slots[id]? = some slot) (state : FrameSlotState) :
    (p.held state).count (p.tokenOf id slot) = if slot.state = state then 1 else 0 := by
  -- take the slot out of the state: its token is then gone from `held`
  obtain ⟨other, hOther⟩ : ∃ other : FrameSlotState, other ≠ state := by
    cases state
    · exact ⟨.writing, nofun⟩
    · exact ⟨.free, nofun⟩
    · exact ⟨.free, nofun⟩
    · exact ⟨.free, nofun⟩
  have hSet := held_setSlot hSlot { slot with state := other } state
  have hGone : p.tokenOf id slot ∉ (p.setSlot id { slot with state := other }).held state := by
    intro hMem
    obtain ⟨found, hFound, hState, -⟩ := mem_held.mp hMem
    obtain ⟨hLt, -⟩ := List.getElem?_eq_some_iff.mp hSlot
    have hSame : (p.slots.set id { slot with state := other })[id]? = some found := hFound
    rw [List.getElem?_set_self hLt] at hSame
    rw [← Option.some.inj hSame] at hState
    exact hOther hState
  have hCount := congrArg (Multiset.count (p.tokenOf id slot)) hSet
  rw [Multiset.count_add, Multiset.count_add, Multiset.count_eq_zero_of_notMem hGone,
    show p.tokenIn state id { slot with state := other } = 0 from if_neg hOther,
    Multiset.count_zero, Nat.zero_add, Nat.add_zero] at hCount
  rw [← hCount, tokenIn]
  split
  · exact Multiset.count_singleton_self _
  · exact Multiset.count_zero _

end FrameSlotPool

-- ---------------------------------------------------------------------------
-- The invariant
-- ---------------------------------------------------------------------------

/-- The leases of the two threads and the slots of the pool fit together. -/
structure Leased (p : FrameSlotPool) (threads : Role → ThreadId)
    (leases : Role → List FrameLease) : Prop where
  tokens : ∀ role, live (leases role) = p.held role.holds
  pools : ∀ role, ∀ lease ∈ leases role, lease.active = true → lease.pool = true
  generations : ∀ slot ∈ p.slots, slot.state ≠ .free → slot.generation ≠ 0
  admits : ∀ role, p.Admits role (threads role)
  owned : ∀ role, ∀ slot ∈ p.slots, slot.state = role.holds →
    p.threadOf role = some (threads role)

namespace Leased

variable {p p' : FrameSlotPool} {threads : Role → ThreadId} {leases leases' : Role → List FrameLease}
  {id : Nat} {slot next : SlotStorage} {role : Role} {lease : FrameLease}

/-- An active lease is live. -/
theorem mem_live {list : List FrameLease} (hMem : lease ∈ list) (hActive : lease.active = true) :
    lease.token ∈ live list := by
  refine mem_total.mpr ⟨lease, hMem, ?_⟩
  rw [FrameLease.live, if_pos hActive]
  exact Multiset.mem_singleton_self _

/-- The slot of an active lease is in use by the thread of the lease. -/
theorem inUse (h : Leased p threads leases) (hMem : lease ∈ leases role)
    (hActive : lease.active = true) :
    ∃ slot, p.InUse role (threads role) lease.token slot := by
  have hToken := mem_live hMem hActive
  rw [h.tokens] at hToken
  obtain ⟨slot, hSlot, hState, hEq⟩ := FrameSlotPool.mem_held.mp hToken
  have hIn := List.mem_of_getElem? hSlot
  have hBusy : slot.state ≠ .free := by
    rw [hState]
    cases role <;> decide
  refine ⟨slot, h.owned role slot hIn hState, ?_, hState⟩
  refine FrameSlotPool.slotForToken_eq_ok_iff.mpr ⟨hSlot, ?_, ?_, ?_⟩
  · rw [hEq]
    rfl
  · rw [hEq]
    exact h.generations slot hIn hBusy
  · rw [hEq]
    rfl

/-- One slot changes, and the leases on it with it. -/
theorem setSlot (h : Leased p threads leases) (hSlot : p.slots[id]? = some slot)
    (hLive : ∀ role, live (leases' role) + p.tokenIn role.holds id slot =
      live (leases role) + p.tokenIn role.holds id next)
    (hPools : ∀ role, ∀ lease ∈ leases' role, lease.active = true → lease.pool = true)
    (hGeneration : next.state ≠ .free → next.generation ≠ 0)
    (hThread : ∀ role, next.state = role.holds → p.threadOf role = some (threads role)) :
    Leased (p.setSlot id next) threads leases' := by
  refine ⟨fun role => ?_, hPools, forall_mem_set hGeneration h.generations, fun role => ?_,
    fun role => ?_⟩
  · have hHeld := FrameSlotPool.held_setSlot hSlot next role.holds
    rw [← h.tokens role, ← hLive role] at hHeld
    exact (add_right_cancel hHeld).symm
  · unfold FrameSlotPool.Admits
    rw [FrameSlotPool.setSlot_threadOf]
    exact h.admits role
  · rw [FrameSlotPool.setSlot_threadOf]
    exact forall_mem_set (hThread role) (h.owned role)

/-- The slots stay as they are, and so do the tokens of the active leases. -/
theorem frame (h : Leased p threads leases) (hSlots : p'.slots = p.slots)
    (hPool : p'.poolId = p.poolId)
    (hThreads : ∀ role, p'.threadOf role = p.threadOf role ∨
      p'.threadOf role = some (threads role))
    (hLive : ∀ role, live (leases' role) = live (leases role))
    (hPools : ∀ role, ∀ lease ∈ leases' role, lease.active = true → lease.pool = true) :
    Leased p' threads leases' := by
  refine ⟨fun role => ?_, hPools, hSlots ▸ h.generations, fun role => ?_,
    fun role slot hMem hState => ?_⟩
  · rw [hLive role, h.tokens role]
    unfold FrameSlotPool.held FrameSlotPool.tokenIn FrameSlotPool.tokenOf
    rw [hSlots, hPool]
  · rcases hThreads role with hSame | hSet
    · unfold FrameSlotPool.Admits
      rw [hSame]
      exact h.admits role
    · exact Or.inr hSet
  · rcases hThreads role with hSame | hSet
    · rw [hSame]
      exact h.owned role slot (hSlots ▸ hMem) hState
    · exact hSet

/-- A slot in another state holds no token. -/
theorem tokenIn_of_ne {state : FrameSlotState} (h : slot.state ≠ state) :
    p.tokenIn state id slot = 0 := if_neg h

/-- A slot in the state holds its own. -/
theorem tokenIn_of_eq {state : FrameSlotState} (h : slot.state = state) :
    p.tokenIn state id slot = {p.tokenOf id slot} := if_pos h

/-- A slot in use changes hands: it gets a lease of one role and keeps those of the other. -/
theorem live_update {role' : Role} {list : List FrameLease} {a b : Multiset FrameSlotToken}
    (hRole : live list + a = live (leases role) + b)
    (hOther : role' ≠ role → p.tokenIn role'.holds id slot = p.tokenIn role'.holds id next)
    (hSlot : p.tokenIn role.holds id slot = a) (hNext : p.tokenIn role.holds id next = b) :
    live (Function.update leases role list role') + p.tokenIn role'.holds id slot =
      live (leases role') + p.tokenIn role'.holds id next := by
  by_cases hSame : role' = role
  · subst hSame
    rw [Function.update_self, hSlot, hNext, hRole]
  · rw [Function.update_of_ne hSame, hOther hSame]

/-- Every active lease belongs to a pool, also after one list is replaced. -/
theorem pools_update {list : List FrameLease}
    (h : ∀ role, ∀ lease ∈ leases role, lease.active = true → lease.pool = true)
    (hList : ∀ lease ∈ list, lease.active = true → lease.pool = true) (role : Role) :
    ∀ role', ∀ lease ∈ Function.update leases role list role',
      lease.active = true → lease.pool = true := by
  intro role'
  by_cases hSame : role' = role
  · subst hSame
    rw [Function.update_self]
    exact hList
  · rw [Function.update_of_ne hSame]
    exact h role'

/-- A slot that no lease is on gets one. -/
theorem gain (h : Leased p threads leases) (hSlot : p.slots[id]? = some slot)
    (hIdle : ∀ role : Role, slot.state ≠ role.holds) (hState : next.state = role.holds)
    (hGeneration : next.generation ≠ 0) (hThread : p.threadOf role = some (threads role)) :
    Leased (p.setSlot id next) threads (Function.update leases role (leases role ++
      [{ pool := true, token := p.tokenOf id next, active := true }])) := by
  refine h.setSlot hSlot (fun role' => ?_) ?_ (fun _ => hGeneration) fun role' hHolds => ?_
  · refine live_update (a := 0) (b := {p.tokenOf id next}) ?_ (fun hOther => ?_)
      (tokenIn_of_ne (hIdle role)) (tokenIn_of_eq hState)
    · rw [live, total_append_one, add_zero]
      rfl
    · rw [tokenIn_of_ne (hIdle role'), tokenIn_of_ne]
      rw [hState]
      revert hOther
      cases role <;> cases role' <;> decide
  · refine pools_update h.pools (forall_mem_append_one ?_ (h.pools role)) role
    exact fun _ => rfl
  · have hSame : role' = role := by
      rw [hState] at hHolds
      revert hHolds
      cases role <;> cases role' <;> decide
    rw [hSame]
    exact hThread

/-- The slot of an active lease goes on to a state that no lease is on. -/
theorem lose (h : Leased p threads leases) {i : Nat} (hLease : (leases role)[i]? = some lease)
    (hActive : lease.active = true) (hSlot : p.slotForToken lease.token = .ok slot)
    (hState : slot.state = role.holds) (hIdle : ∀ role : Role, next.state ≠ role.holds)
    (hGeneration : next.generation = slot.generation) :
    Leased (p.setSlot lease.token.slotId next) threads
      (Function.update leases role ((leases role).set i { lease with active := false })) := by
  have hToken := FrameSlotPool.eq_tokenOf hSlot
  have hAt := (FrameSlotPool.slotForToken_eq_ok_iff.mp hSlot).1
  refine h.setSlot hAt (fun role' => ?_) ?_ (fun _ => ?_) fun role' hHolds => ?_
  · refine live_update (a := {lease.token}) (b := 0) ?_ (fun hOther => ?_) ?_
      (tokenIn_of_ne (hIdle role))
    · have hTotal := total_set FrameLease.live { lease with active := false } hLease
      rw [show lease.live = {lease.token} from if_pos hActive] at hTotal
      exact hTotal
    · rw [tokenIn_of_ne (hIdle role'), tokenIn_of_ne]
      rw [hState]
      revert hOther
      cases role <;> cases role' <;> decide
    · rw [tokenIn_of_eq hState, ← hToken]
  · exact pools_update h.pools (forall_mem_set
      (fun hNo => (Bool.false_ne_true hNo).elim) (h.pools role)) role
  · have hBusy : slot.state ≠ .free := by
      rw [hState]
      cases role <;> decide
    rw [hGeneration]
    exact h.generations slot (List.mem_of_getElem? hAt) hBusy
  · exact absurd hHolds (hIdle role')

/-- A slot changes inside, or between states that no lease is on. -/
theorem keep (h : Leased p threads leases) (hSlot : p.slots[id]? = some slot)
    (hState : next.state = slot.state ∨
      (∀ role : Role, slot.state ≠ role.holds) ∧ ∀ role : Role, next.state ≠ role.holds)
    (hGeneration : next.generation = slot.generation)
    (hBusy : next.state ≠ .free → slot.state ≠ .free) :
    Leased (p.setSlot id next) threads leases := by
  refine h.setSlot hSlot (fun role => ?_) h.pools (fun hNext => ?_) fun role hHolds => ?_
  · rcases hState with hSame | ⟨hWas, hIs⟩
    · have hToken : p.tokenOf id next = p.tokenOf id slot := by
        rw [FrameSlotPool.tokenOf, hGeneration]
        rfl
      rw [FrameSlotPool.tokenIn, FrameSlotPool.tokenIn, hSame, hToken]
    · rw [tokenIn_of_ne (hWas role), tokenIn_of_ne (hIs role)]
  · rw [hGeneration]
    exact h.generations slot (List.mem_of_getElem? hSlot) (hBusy hNext)
  · rcases hState with hSame | ⟨-, hIs⟩
    · exact h.owned role slot (List.mem_of_getElem? hSlot) (hSame ▸ hHolds)
    · exact absurd hHolds (hIs role)

/-- A lease that is not active is gone, or another takes its place. -/
theorem withLeases (h : Leased p threads leases) {list : List FrameLease}
    (hLive : live list = live (leases role))
    (hPools : ∀ lease ∈ list, lease.active = true → lease.pool = true) :
    Leased p threads (Function.update leases role list) := by
  refine h.frame rfl rfl (fun _ => Or.inl rfl) (fun role' => ?_) (pools_update h.pools hPools role)
  by_cases hSame : role' = role
  · rw [hSame, Function.update_self, hLive]
  · rw [Function.update_of_ne hSame]

end Leased

-- ---------------------------------------------------------------------------
-- Steps
-- ---------------------------------------------------------------------------

/-- The pool, the leases and the threads that wait agree. -/
structure System.Sound (s : System) : Prop where
  leased : Leased s.pool s.threads s.leases
  operations : s.pool.activeOperations = s.writeWaits.toNat + s.readWaits.isSome.toNat
  waiting : ∀ role, s.waits role = true → s.pool.threadOf role = some (s.threads role)
  running : s.terminated = false

namespace System.Sound

variable {s s' : System} {role : Role} {lease : FrameLease} {i : Nat} {q : FrameSlotPool}
  {token : FrameSlotToken} {r : FrameSlotPool × Outcome (Option FrameLease)}

/-- The producer's call is over. -/
theorem acquiredWrite (hLeased : Leased q s.threads s.leases)
    (hThread : q.threadOf .producer = some (s.threads .producer))
    (hWaiting : s.readWaits.isSome = true → q.threadOf .consumer = some (s.threads .consumer))
    (hOperations : q.activeOperations = s.readWaits.isSome.toNat) (hRunning : s.terminated = false)
    (hClaims : q.Claims r) : (s.acquiredWrite r).Sound := by
  have hCount : q.activeOperations = false.toNat + s.readWaits.isSome.toNat := by
    rw [hOperations, Bool.toNat_false, Nat.zero_add]
  have hOwned : ∀ role, (role = .consumer → s.readWaits.isSome = true) →
      q.threadOf role = some (s.threads role) := fun role hWaits => by
    cases role with
    | producer => exact hThread
    | consumer => exact hWaiting (hWaits rfl)
  cases hClaims with
  | nothing =>
    exact ⟨hLeased, hCount, fun role hWaits => hOwned role (by rintro rfl; exact hWaits), hRunning⟩
  | threw e =>
    exact ⟨hLeased, hCount, fun role hWaits => hOwned role (by rintro rfl; exact hWaits), hRunning⟩
  | claimed hOpen hSlot hFree =>
    refine ⟨hLeased.gain hSlot (fun role => ?_) rfl (Nat.succ_ne_zero _) hThread, hCount,
      fun role hWaits => FrameSlotPool.setSlot_threadOf.trans
        (hOwned role (by rintro rfl; exact hWaits)), hRunning⟩
    rw [hFree]
    cases role <;> decide

/-- The consumer's call is over. -/
theorem acquiredRead (hLeased : Leased q s.threads s.leases)
    (hThread : q.threadOf .consumer = some (s.threads .consumer))
    (hWaiting : s.writeWaits = true → q.threadOf .producer = some (s.threads .producer))
    (hOperations : q.activeOperations = s.writeWaits.toNat) (hRunning : s.terminated = false)
    (hGrants : q.Grants token r) : (s.acquiredRead token r).Sound := by
  have hCount : q.activeOperations = s.writeWaits.toNat + false.toNat := hOperations
  have hOwned : ∀ role, (role = .producer → s.writeWaits = true) →
      q.threadOf role = some (s.threads role) := fun role hWaits => by
    cases role with
    | producer => exact hWaiting (hWaits rfl)
    | consumer => exact hThread
  cases hGrants with
  | nothing =>
    exact ⟨hLeased, hCount, fun role hWaits => hOwned role (by rintro rfl; exact hWaits), hRunning⟩
  | threw e =>
    exact ⟨hLeased, hCount, fun role hWaits => hOwned role (by rintro rfl; exact hWaits), hRunning⟩
  | @granted slot hSlot hPublished =>
    have hAt := (FrameSlotPool.slotForToken_eq_ok_iff.mp hSlot).1
    have hToken := FrameSlotPool.eq_tokenOf hSlot
    have hIdle : ∀ role : Role, slot.state ≠ role.holds := fun role => by
      rw [hPublished]
      cases role <;> decide
    have hBusy : slot.state ≠ .free := by
      rw [hPublished]
      decide
    have hGained : Leased (q.setSlot token.slotId { slot with state := .reading }) s.threads
        (Function.update s.leases .consumer (s.leases .consumer ++
          [{ pool := true, token := q.tokenOf token.slotId slot, active := true }])) :=
      hLeased.gain hAt hIdle rfl (hLeased.generations slot (List.mem_of_getElem? hAt) hBusy) hThread
    rw [← hToken] at hGained
    exact ⟨hGained, hCount, fun role hWaits => FrameSlotPool.setSlot_threadOf.trans
      (hOwned role (by rintro rfl; exact hWaits)), hRunning⟩

/-- `Cancel` and `Release` never terminate, and leave the lease inactive. -/
theorem giveBack (h : s.Sound) (hLease : (s.leases role)[i]? = some lease) :
    ∃ pool leases, s.giveBack role i lease = { s.setLeases role leases with pool } ∧
      (s.giveBack role i lease).Sound ∧ (∃ l, leases[i]? = some l ∧ l.active = false) ∧
      ∀ j, j ≠ i → leases[j]? = (s.leases role)[j]? := by
  obtain ⟨hLt, -⟩ := List.getElem?_eq_some_iff.mp hLease
  have hMem := List.mem_of_getElem? hLease
  unfold System.giveBack FrameLease.giveBack
  by_cases hActive : lease.active = true
  · have hUsable : lease.usable = true := by
      rw [FrameLease.usable, hActive, h.leased.pools role lease hMem hActive]
      rfl
    obtain ⟨slot, hUse⟩ := h.leased.inUse hMem hActive
    rw [if_pos hUsable, FrameSlotPool.back_eq_ok_iff.mpr ⟨slot, hUse, rfl⟩]
    refine ⟨_, _, rfl, ⟨?_, h.operations, fun role' hWaits => ?_, h.running⟩,
      ⟨_, List.getElem?_set_self hLt, rfl⟩, fun j hj => List.getElem?_set_ne (Ne.symm hj)⟩
    · refine h.leased.lose hLease hActive hUse.2.1 hUse.2.2 (fun role' => ?_) rfl
      cases role' <;> exact nofun
    · exact FrameSlotPool.setSlot_threadOf.trans (h.waiting role' (by cases role' <;> exact hWaits))
  · have hUsable : lease.usable ≠ true := fun hNo => hActive (Bool.and_eq_true_iff.mp hNo).1
    rw [if_neg hUsable]
    have hSame : (s.leases role).set i lease = s.leases role := by
      refine List.ext_getElem? fun j => ?_
      by_cases hj : i = j
      · rw [← hj, List.getElem?_set_self hLt, hLease]
      · rw [List.getElem?_set_ne hj]
    refine ⟨_, _, rfl, ⟨?_, h.operations, fun role' hWaits => ?_, h.running⟩, ⟨lease, ?_, ?_⟩,
      fun j _ => ?_⟩
    · show Leased s.pool s.threads (Function.update s.leases role ((s.leases role).set i lease))
      rw [hSame, Function.update_eq_self]
      exact h.leased
    · exact h.waiting role' (by cases role' <;> exact hWaits)
    · rw [hSame, hLease]
    · exact Bool.eq_false_of_not_eq_true hActive
    · rw [hSame]

/-- As many live leases as before. -/
theorem withLeases (h : s.Sound) {list : List FrameLease}
    (hLive : live list = live (s.leases role))
    (hPools : ∀ lease ∈ list, lease.active = true → lease.pool = true) :
    (s.setLeases role list).Sound :=
  ⟨h.leased.withLeases hLive hPools, h.operations,
    fun role' hWaits => h.waiting role' (by cases role' <;> exact hWaits), h.running⟩

/-- A lease that is not active is not live. -/
theorem live_inactive (h : lease.active = false) : lease.live = 0 := by
  rw [FrameLease.live, h]
  rfl

/-- The move constructor hands the token over. -/
theorem moveConstruct (h : s.Sound) (hOther : (s.leases role)[i]? = some lease) :
    (s.setLeases role ((s.leases role).set i lease.movedFrom ++ [lease])).Sound := by
  have hMem := List.mem_of_getElem? hOther
  refine h.withLeases ?_ (forall_mem_append_one (h.leased.pools role lease hMem)
    (forall_mem_set (fun hNo => (Bool.false_ne_true hNo).elim) (h.leased.pools role)))
  have hTotal := total_set FrameLease.live lease.movedFrom hOther
  have hGone : lease.movedFrom.live = 0 := live_inactive rfl
  rw [hGone, add_zero] at hTotal
  rw [live, total_append_one]
  exact hTotal

/-- The move assignment hands the token over to a lease that was given back. -/
theorem moveAssign (h : s.Sound) {j : Nat} {other : FrameLease} (hij : j ≠ i)
    (hLease : (s.leases role)[i]? = some lease) (hInactive : lease.active = false)
    (hOther : (s.leases role)[j]? = some other) :
    (s.setLeases role (((s.leases role).set i other).set j other.movedFrom)).Sound := by
  have hMem := List.mem_of_getElem? hOther
  have hStill : ((s.leases role).set i other)[j]? = some other := by
    rw [List.getElem?_set_ne (Ne.symm hij), hOther]
  refine h.withLeases ?_ (forall_mem_set (fun hNo => (Bool.false_ne_true hNo).elim)
    (forall_mem_set (h.leased.pools role other hMem) (h.leased.pools role)))
  have hFirst := total_set FrameLease.live other hLease
  have hSecond := total_set FrameLease.live other.movedFrom hStill
  rw [live_inactive hInactive, add_zero] at hFirst
  have hGone : other.movedFrom.live = 0 := live_inactive rfl
  rw [hGone, add_zero, hFirst] at hSecond
  exact add_right_cancel hSecond

/-- A lease that is not active is destroyed. -/
theorem destroy (h : s.Sound) (hLease : (s.leases role)[i]? = some lease)
    (hInactive : lease.active = false) :
    (s.setLeases role ((s.leases role).eraseIdx i)).Sound := by
  refine h.withLeases ?_ fun other hOther =>
    h.leased.pools role other (List.mem_of_mem_eraseIdx hOther)
  have hTotal := total_eraseIdx FrameLease.live hLease
  rw [live_inactive hInactive, add_zero] at hTotal
  exact hTotal

/-- Every lease operation keeps the invariant. -/
theorem leaseStep (h : s.Sound) {op : LeaseOp} (hStep : s.leaseStep role op = some s') :
    s'.Sound := by
  cases op with
  | construct =>
    obtain rfl := Option.some.inj hStep
    refine h.withLeases ?_ (forall_mem_append_one (fun hNo => (Bool.false_ne_true hNo).elim)
      (h.leased.pools role))
    have hEmpty : FrameLease.live {} = 0 := live_inactive rfl
    rw [live, total_append_one, hEmpty, add_zero]
    rfl
  | moveConstruct j =>
    obtain ⟨other, hOther, hNext⟩ := Option.bind_eq_some_iff.mp hStep
    obtain rfl := Option.some.inj hNext
    exact h.moveConstruct hOther
  | moveAssign i j =>
    obtain ⟨lease, hLease, hRest⟩ := Option.bind_eq_some_iff.mp hStep
    obtain ⟨other, hOther, hNext⟩ := Option.bind_eq_some_iff.mp hRest
    split at hNext
    · obtain rfl := Option.some.inj hNext
      exact h
    · rename_i hij
      obtain ⟨pool, leases, hEq, hBack, ⟨l, hl, hInactive⟩, hOthers⟩ := h.giveBack hLease
      rw [if_neg (by rw [hBack.running]; decide)] at hNext
      obtain rfl := Option.some.inj hNext
      have hLeases : (s.giveBack role i lease).leases role = leases := by
        rw [hEq]
        exact Function.update_self _ _ _
      refine hBack.moveAssign (Ne.symm hij) (by rw [hLeases, hl]) hInactive ?_
      rw [hLeases, hOthers j (Ne.symm hij), hOther]
  | giveBack i =>
    obtain ⟨lease, hLease, hNext⟩ := Option.bind_eq_some_iff.mp hStep
    obtain rfl := Option.some.inj hNext
    obtain ⟨-, -, -, hBack, -⟩ := h.giveBack hLease
    exact hBack
  | destroy i =>
    obtain ⟨lease, hLease, hNext⟩ := Option.bind_eq_some_iff.mp hStep
    obtain ⟨pool, leases, hEq, hBack, ⟨l, hl, hInactive⟩, -⟩ := h.giveBack hLease
    rw [if_neg (by rw [hBack.running]; decide)] at hNext
    obtain rfl := Option.some.inj hNext
    have hLeases : (s.giveBack role i lease).leases role = leases := by
      rw [hEq]
      exact Function.update_self _ _ _
    exact hBack.destroy (by rw [hLeases, hl]) hInactive

/-- The pool as a call of a thread finds it. -/
theorem withThread (h : s.Sound) (n : Nat) (role : Role) :
    Leased ((s.pool.withOperations n).withThread (s.threads role) role) s.threads s.leases := by
  refine h.leased.frame ?_ ?_ (fun role' => ?_) (fun _ => rfl) h.leased.pools
  · rw [FrameSlotPool.withThread_slots]
    rfl
  · rw [FrameSlotPool.withThread_poolId]
    rfl
  · cases role <;> cases role'
    · exact Or.inr rfl
    · exact Or.inl rfl
    · exact Or.inl rfl
    · exact Or.inr rfl

/-- The count of the operations is not one of the leases. -/
theorem withOperations (h : Leased q s.threads s.leases) (n : Nat) :
    Leased (q.withOperations n) s.threads s.leases := by
  refine h.frame rfl rfl (fun role => ?_) (fun _ => rfl) h.pools
  cases role <;> exact Or.inl rfl

/-- The producer's loop, entered for the first time or again. -/
theorem acquireWriteLoop (hLeased : Leased q s.threads s.leases)
    (hThread : q.threadOf .producer = some (s.threads .producer))
    (hWaiting : s.readWaits.isSome = true → q.threadOf .consumer = some (s.threads .consumer))
    (hOperations : q.activeOperations = s.readWaits.isSome.toNat + 1)
    (hRunning : s.terminated = false) : (s.acquiredWrite q.acquireWriteLoop).Sound := by
  have hSome : q.activeOperations ≠ 0 := by
    rw [hOperations]
    exact Nat.succ_ne_zero _
  rcases FrameSlotPool.acquireWriteLoop_claims hSome with hBlocked | hClaims
  · rw [hBlocked]
    refine ⟨hLeased, ?_, fun role hWaits => ?_, hRunning⟩
    · show q.activeOperations = true.toNat + _
      rw [hOperations, Nat.add_comm]
      rfl
    · cases role with
      | producer => exact hThread
      | consumer => exact hWaiting hWaits
  · rw [hOperations, Nat.add_sub_cancel] at hClaims
    exact acquiredWrite (withOperations hLeased s.readWaits.isSome.toNat) hThread hWaiting rfl hRunning hClaims

/-- The consumer's loop. -/
theorem acquireReadLoop (hLeased : Leased q s.threads s.leases)
    (hThread : q.threadOf .consumer = some (s.threads .consumer))
    (hWaiting : s.writeWaits = true → q.threadOf .producer = some (s.threads .producer))
    (hOperations : q.activeOperations = s.writeWaits.toNat + 1) (hRunning : s.terminated = false)
    (token : FrameSlotToken) (blocking : Bool) :
    (s.acquiredRead token (q.acquireReadLoop token blocking)).Sound := by
  have hSome : q.activeOperations ≠ 0 := by
    rw [hOperations]
    exact Nat.succ_ne_zero _
  rcases FrameSlotPool.acquireReadLoop_grants hSome token blocking with ⟨hBlocked, -⟩ | hGrants
  · rw [hBlocked]
    refine ⟨hLeased, hOperations, fun role hWaits => ?_, hRunning⟩
    cases role with
    | producer => exact hWaiting hWaits
    | consumer => exact hThread
  · rw [hOperations, Nat.add_sub_cancel] at hGrants
    exact acquiredRead (withOperations hLeased s.writeWaits.toNat) hThread hWaiting rfl hRunning hGrants

/-- `AcquireRead`, waiting or not. -/
theorem acquireReadImpl (h : s.Sound) (hIdle : s.readWaits = none) (token : FrameSlotToken)
    (blocking : Bool) : (s.acquiredRead token
      (s.pool.acquireReadImpl (s.threads .consumer) token blocking)).Sound := by
  have hCount : s.pool.activeOperations = s.writeWaits.toNat := by
    rw [h.operations, hIdle]
    rfl
  rcases FrameSlotPool.acquireReadImpl_eq (h.leased.admits .consumer) token blocking with
    ⟨e, -, hThrew⟩ | ⟨-, hLoop⟩
  · rw [hThrew]
    refine ⟨h.leased, hCount, fun role hWaits => ?_, h.running⟩
    cases role with
    | producer => exact h.waiting .producer hWaits
    | consumer => exact nomatch hWaits
  · rw [hLoop]
    exact acquireReadLoop (h.withThread (s.pool.activeOperations + 1) .consumer) rfl (h.waiting .producer)
      (by rw [← hCount]; rfl) h.running token blocking

/-- A write through a lease. -/
theorem useWrite (h : s.Sound) {use : FrameSlotToken → Except FrameSlotError FrameSlotPool}
    (hUse : ∀ token pool, use token = .ok pool → ∃ slot next,
      s.pool.InUse .producer (s.threads .producer) token slot ∧ next.state = slot.state ∧
      next.generation = slot.generation ∧ pool = s.pool.setSlot token.slotId next)
    (hStep : s.useWrite i use = some s') : s'.Sound := by
  obtain ⟨lease, hLease, hNext⟩ := Option.bind_eq_some_iff.mp hStep
  unfold FrameLease.withToken at hNext
  split at hNext
  · rename_i pool hOk
    obtain rfl := Option.some.inj hNext
    split at hOk
    · obtain ⟨slot, next, hInUse, hState, hGeneration, rfl⟩ := hUse _ _ hOk
      have hAt := (FrameSlotPool.slotForToken_eq_ok_iff.mp hInUse.2.1).1
      exact ⟨h.leased.keep hAt (Or.inl hState) hGeneration fun hBusy => hState ▸ hBusy,
        h.operations, fun role hWaits => FrameSlotPool.setSlot_threadOf.trans
          (h.waiting role (by cases role <;> exact hWaits)), h.running⟩
    · exact nomatch hOk
  · obtain rfl := Option.some.inj hNext
    exact h

/-- `Publish`. -/
theorem publish (h : s.Sound) (hLease : (s.leases .producer)[i]? = some lease) :
    (s.publish i lease).Sound := by
  unfold System.publish FrameLease.withToken
  split
  · rename_i pool hOk
    split at hOk
    · rename_i hUsable
      obtain ⟨-, slot, hInUse, rfl⟩ := FrameSlotPool.publishWrite_eq_ok_iff.mp hOk
      have hActive := (Bool.and_eq_true_iff.mp hUsable).1
      refine ⟨h.leased.lose hLease hActive hInUse.2.1 hInUse.2.2 (fun role => ?_) rfl,
        h.operations, fun role hWaits => FrameSlotPool.setSlot_threadOf.trans
          (h.waiting role (by cases role <;> exact hWaits)), h.running⟩
      cases role <;> exact nofun
    · exact nomatch hOk
  · exact h

/-- `DiscardPublished`. -/
theorem discardPublished (h : s.Sound) (token : FrameSlotToken) :
    (s.discardPublished token).Sound := by
  have hThread := h.withThread s.pool.activeOperations .consumer
  have hWaiting : ∀ role, s.waits role = true →
      (s.pool.withThread (s.threads .consumer) .consumer).threadOf role = some (s.threads role) := by
    intro role hWaits
    cases role with
    | producer => exact h.waiting .producer hWaits
    | consumer => rfl
  unfold System.discardPublished
  rcases FrameSlotPool.discardPublished_cases (h.leased.admits .consumer) token with
    ⟨e, -, hThrew⟩ | ⟨e, hThrew⟩ | ⟨slot, -, hSlot, hPublished, hDone⟩
  · rw [hThrew]
    exact h
  · rw [hThrew]
    exact ⟨hThread, h.operations, hWaiting, h.running⟩
  · rw [hDone]
    have hAt := (FrameSlotPool.slotForToken_eq_ok_iff.mp hSlot).1
    refine ⟨hThread.keep hAt (Or.inr ⟨fun role => ?_, fun role => ?_⟩) rfl (fun hNo => ?_),
      h.operations, fun role hWaits => FrameSlotPool.setSlot_threadOf.trans
        (hWaiting role (by cases role <;> exact hWaits)), h.running⟩
    · rw [hPublished]
      cases role <;> decide
    · cases role <;> exact nofun
    · exact absurd rfl hNo

/-- Every section keeps the invariant. -/
theorem step (h : s.Sound) {a : Action} (hStep : s.step a = some s') : s'.Sound := by
  cases System.section_of_step h.running hStep with
  | tryAcquireWrite hIdle =>
    have hCount : s.pool.activeOperations = s.readWaits.isSome.toNat := by
      rw [h.operations, hIdle, Bool.toNat_false, Nat.zero_add]
    exact acquiredWrite (h.withThread s.pool.activeOperations .producer) rfl
      (h.waiting .consumer) hCount h.running
      (FrameSlotPool.tryAcquireWrite_claims (h.leased.admits .producer))
  | acquireWrite hIdle =>
    have hCount : s.pool.activeOperations = s.readWaits.isSome.toNat := by
      rw [h.operations, hIdle, Bool.toNat_false, Nat.zero_add]
    rw [FrameSlotPool.acquireWrite_eq (h.leased.admits .producer)]
    exact acquireWriteLoop (h.withThread (s.pool.activeOperations + 1) .producer) rfl
      (h.waiting .consumer) (by rw [← hCount]; rfl) h.running
  | resumeWrite hWaits =>
    refine acquireWriteLoop h.leased (h.waiting .producer hWaits) (h.waiting .consumer) ?_
      h.running
    rw [h.operations, hWaits, Nat.add_comm]
    rfl
  | @write i offset bytes _ hIdle hRoom hUse =>
    refine h.useWrite (fun token pool hOk => ?_) hUse
    obtain ⟨slot, hInUse, rfl⟩ := FrameSlotPool.writePayload_eq_ok hOk
    exact ⟨slot, { slot with payload := FrameSlotPool.copyBytes offset bytes slot.payload },
      hInUse, rfl, rfl, rfl⟩
  | @setPayloadSize i size _ hIdle hUse =>
    refine h.useWrite (fun token pool hOk => ?_) hUse
    obtain ⟨slot, hInUse, rfl⟩ := FrameSlotPool.setWritePayloadSize_eq_ok hOk
    exact ⟨slot, { slot with payloadSize := size }, hInUse, rfl, rfl, rfl⟩
  | publish hIdle hLease => exact h.publish hLease
  | tryAcquireRead hIdle => exact h.acquireReadImpl hIdle _ false
  | acquireRead hIdle => exact h.acquireReadImpl hIdle _ true
  | resumeRead hWaits =>
    refine acquireReadLoop h.leased (h.waiting .consumer ?_) (h.waiting .producer) ?_ h.running
      _ true
    · rw [System.waits, hWaits]
      rfl
    · rw [h.operations, hWaits]
      rfl
  | discardPublished hIdle => exact h.discardPublished _
  | lease hIdle hLease => exact h.leaseStep hLease
  | close =>
    refine ⟨h.leased.frame rfl rfl (fun role => ?_) (fun _ => rfl) h.leased.pools, h.operations,
      fun role hWaits => ?_, h.running⟩
    · cases role <;> exact Or.inl rfl
    · have hWas := h.waiting role (by cases role <;> exact hWaits)
      cases role <;> exact hWas

end System.Sound

-- ---------------------------------------------------------------------------
-- Runs
-- ---------------------------------------------------------------------------

section Run

variable {slotCount payloadCapacity poolId : Nat} {threads : Role → ThreadId}
  {actions : List Action} {s : System}

/-- A new pool: all slots are free. -/
theorem FrameSlotPool.create_eq_ok {p : FrameSlotPool}
    (h : FrameSlotPool.create slotCount payloadCapacity poolId = .ok p) :
    p = {
      slots := List.replicate slotCount { payload := List.replicate payloadCapacity 0 }
      payloadCapacity, poolId } := by
  unfold FrameSlotPool.create at h
  split at h
  · exact nomatch h
  · split at h
    · exact nomatch h
    · exact (Except.ok.inj h).symm

/-- A run begins with a new pool. -/
theorem run_eq_some (h : run slotCount payloadCapacity poolId threads actions = some s) :
    ∃ pool, FrameSlotPool.create slotCount payloadCapacity poolId = .ok pool ∧
      runEvents System.step { pool, threads } actions = some s := by
  obtain ⟨pool, hPool, hRun⟩ := Option.bind_eq_some_iff.mp h
  exact ⟨pool, eq_ok_of_toOption hPool, hRun⟩

/-- A new pool is sound. -/
theorem sound_start {pool : FrameSlotPool}
    (h : FrameSlotPool.create slotCount payloadCapacity poolId = .ok pool) :
    System.Sound { pool, threads } := by
  obtain rfl := FrameSlotPool.create_eq_ok h
  have hFree : ∀ slot ∈ List.replicate slotCount
      ({ payload := List.replicate payloadCapacity 0 } : SlotStorage), slot.state = .free := by
    intro slot hSlot
    rw [List.eq_of_mem_replicate hSlot]
  refine ⟨⟨fun role => ?_, nofun, fun slot hSlot hBusy => absurd (hFree slot hSlot) hBusy,
    fun role => ?_, fun role slot hSlot hState => ?_⟩, rfl, fun role hWaits => ?_, rfl⟩
  · refine (Multiset.eq_zero_of_forall_notMem fun token hToken => ?_).symm
    obtain ⟨slot, hSlot, hState, -⟩ := FrameSlotPool.mem_held.mp hToken
    rw [hFree slot (List.mem_of_getElem? hSlot)] at hState
    cases role <;> exact nomatch hState
  · cases role <;> exact Or.inl rfl
  · rw [hFree slot hSlot] at hState
    cases role <;> exact nomatch hState
  · cases role <;> exact nomatch hWaits

/-- Every run is sound. -/
theorem sound_of_run (h : run slotCount payloadCapacity poolId threads actions = some s) :
    s.Sound := by
  obtain ⟨pool, hCreate, hRun⟩ := run_eq_some h
  exact runEvents_invariant (I := System.Sound) (fun hSound hStep => hSound.step hStep)
    (sound_start hCreate) hRun

/-- The active leases that carry a slot id and a generation. -/
def activeOn (leases : List FrameLease) (id generation : Nat) : List FrameLease :=
  leases.filter fun lease =>
    lease.active ∧ lease.token.slotId = id ∧ lease.token.generation = generation

/-- At most one lease for each generation of a slot. -/
theorem length_activeOn {p : FrameSlotPool} {leases : List FrameLease} {id : Nat}
    {slot : SlotStorage}
    (h : ∀ lease ∈ leases, lease.active = true → lease.token.poolId = p.poolId) :
    (activeOn leases id slot.generation).length = (live leases).count (p.tokenOf id slot) := by
  induction leases with
  | nil => rfl
  | cons lease leases ih =>
    have ih := ih fun other hOther => h other (List.mem_cons_of_mem _ hOther)
    have hLive : live (lease :: leases) = lease.live + live leases := rfl
    rw [hLive, Multiset.count_add, ← ih]
    by_cases hActive : lease.active = true
    · have hPool := h lease List.mem_cons_self hActive
      have hToken : lease.token = p.tokenOf id slot ↔
          lease.token.slotId = id ∧ lease.token.generation = slot.generation := by
        constructor
        · intro hEq
          rw [hEq]
          exact ⟨rfl, rfl⟩
        · rintro ⟨rfl, hGeneration⟩
          rw [FrameSlotPool.tokenOf, ← hGeneration, ← hPool]
      rw [FrameLease.live, if_pos hActive, Multiset.count_singleton]
      by_cases hSame : lease.token.slotId = id ∧ lease.token.generation = slot.generation
      · rw [if_pos (hToken.mpr hSame).symm, activeOn, List.filter_cons_of_pos (by simp [hActive, hSame]),
          List.length_cons, Nat.add_comm]
        rfl
      · rw [if_neg fun hEq => hSame (hToken.mp hEq.symm), activeOn,
          List.filter_cons_of_neg (by simpa [hActive] using hSame), Nat.zero_add]
        rfl
    · rw [FrameLease.live, if_neg hActive, Multiset.count_zero, Nat.zero_add, activeOn,
        List.filter_cons_of_neg (by simp [hActive])]
      rfl

/-- In every state of every run, a slot is being written exactly when one active write
lease is on it and being read exactly when one active read lease is, no active lease is
on any other slot, the pool counts the calls that wait, and nothing has terminated. -/
theorem leases_of_run (h : run slotCount payloadCapacity poolId threads actions = some s) :
    (∀ id slot, s.pool.slots[id]? = some slot →
      (slot.state = .writing ↔ (activeOn (s.leases .producer) id slot.generation).length = 1) ∧
      (slot.state = .reading ↔ (activeOn (s.leases .consumer) id slot.generation).length = 1)) ∧
    (∀ role, ∀ lease ∈ s.leases role, lease.active = true →
      ∃ slot, s.pool.slots[lease.token.slotId]? = some slot ∧
        slot.generation = lease.token.generation ∧ slot.state = role.holds) ∧
    s.pool.activeOperations = (s.waits .producer).toNat + (s.waits .consumer).toNat ∧
    s.terminated = false := by
  have hSound := sound_of_run h
  have hInUse : ∀ role, ∀ lease ∈ s.leases role, lease.active = true → ∃ slot,
      s.pool.InUse role (s.threads role) lease.token slot :=
    fun role lease hLease hActive => hSound.leased.inUse hLease hActive
  have hCount : ∀ id slot, s.pool.slots[id]? = some slot → ∀ role : Role,
      (slot.state = role.holds ↔ (activeOn (s.leases role) id slot.generation).length = 1) := by
    intro id slot hSlot role
    have hPool : ∀ lease ∈ s.leases role, lease.active = true →
        lease.token.poolId = s.pool.poolId := by
      intro lease hLease hActive
      obtain ⟨held, -, hHeld, -⟩ := hInUse role lease hLease hActive
      exact (FrameSlotPool.slotForToken_eq_ok_iff.mp hHeld).2.1
    rw [length_activeOn hPool, hSound.leased.tokens role, FrameSlotPool.count_held hSlot]
    split <;> simp_all
  refine ⟨fun id slot hSlot => ⟨hCount id slot hSlot .producer, hCount id slot hSlot .consumer⟩,
    fun role lease hLease hActive => ?_, hSound.operations, hSound.running⟩
  obtain ⟨slot, -, hSlot, hState⟩ := hInUse role lease hLease hActive
  obtain ⟨hAt, -, -, hGeneration⟩ := FrameSlotPool.slotForToken_eq_ok_iff.mp hSlot
  exact ⟨slot, hAt, hGeneration, hState⟩

/-- A frame is published and read while another is moved about, and the producer waits
for a slot. -/
def leaseActions : List Action :=
  [.tryAcquireWrite, .acquireWrite, .publish 0, .acquireRead ⟨0, 1, 1⟩,
    .lease .producer (.moveConstruct 1), .acquireWrite, .lease .consumer .construct,
    .lease .consumer (.moveAssign 1 0)]

theorem leases_of_run_leaseActions : ∃ s,
    run 2 4 1 (fun role => if role = .producer then 10 else 20) leaseActions = some s ∧
    s.pool.slots.map SlotStorage.state = [.reading, .writing] ∧ s.waits .producer = true ∧
    (activeOn (s.leases .consumer) 0 1).length = 1 ∧ s.pool.activeOperations = 1 := by
  obtain ⟨s, hRun, hSlots, hWaits, hReads⟩ : ∃ s,
      run 2 4 1 (fun role => if role = .producer then 10 else 20) leaseActions = some s ∧
      s.pool.slots.map SlotStorage.state = [.reading, .writing] ∧ s.waits .producer = true ∧
      s.waits .consumer = false ∧ ∃ slot, s.pool.slots[0]? = some slot ∧ slot.state = .reading ∧
        slot.generation = 1 := ⟨_, rfl, rfl, rfl, rfl, _, rfl, rfl, rfl⟩
  obtain ⟨hNone, slot, hSlot, hState, hGeneration⟩ := hReads
  obtain ⟨hCounts, -, hOperations, -⟩ := leases_of_run hRun
  have hOne := (hCounts 0 slot hSlot).2.mp hState
  rw [hGeneration] at hOne
  rw [hWaits, hNone] at hOperations
  exact ⟨s, hRun, hSlots, hWaits, hOne, hOperations⟩

end Run

end Ithax.Threading
