import Ithax.Threading.SlotRules

/-!
# The life of a slot

What can happen to the slots of a pool and to the tokens it has given out: a free slot
is claimed under a new generation, written, published or cancelled; a published slot is
granted or discarded; a slot that was read is released. A token is left behind as soon
as its slot is claimed again.

## Results

* `Traced.turn`  — the tokens given out and the slots, turn by turn.
-/

namespace Ithax.Threading

open Ithax.Lib

variable {poolId id : Nat} {slots slots' : List SlotStorage} {slot next : SlotStorage}
  {history history' : History} {token : FrameSlotToken} {P : SlotStorage → Prop}

/-- The token of a slot of the pool. -/
def slotToken (poolId id : Nat) (slot : SlotStorage) : FrameSlotToken :=
  { slotId := id, generation := slot.generation, poolId }

/-- What one section does to the slots, and what the history says of it. -/
inductive Turn (poolId : Nat) (slots : List SlotStorage) (history : History) :
    List SlotStorage → History → Prop where
  | idle : Turn poolId slots history slots history
  | claim {id : Nat} {slot : SlotStorage} (hSlot : slots[id]? = some slot)
      (hFree : slot.state = .free) :
      Turn poolId slots history (slots.set id slot.claimed)
        { history with issued := history.issued ++ [slotToken poolId id slot.claimed] }
  | store {id : Nat} {slot next : SlotStorage} (hSlot : slots[id]? = some slot)
      (hWriting : slot.state = .writing) (hState : next.state = .writing)
      (hGeneration : next.generation = slot.generation) :
      Turn poolId slots history (slots.set id next) history
  | publish {id : Nat} {slot : SlotStorage} (hSlot : slots[id]? = some slot)
      (hWriting : slot.state = .writing) :
      Turn poolId slots history (slots.set id { slot with state := .published })
        { history with published := history.published ++ [{
          token := slotToken poolId id slot
          payloadSize := slot.payloadSize, payload := slot.payload }] }
  | cancel {id : Nat} {slot : SlotStorage} (hSlot : slots[id]? = some slot)
      (hWriting : slot.state = .writing) :
      Turn poolId slots history (slots.set id (slot.freed true)) history
  | grant {id : Nat} {slot : SlotStorage} (hSlot : slots[id]? = some slot)
      (hPublished : slot.state = .published) :
      Turn poolId slots history (slots.set id { slot with state := .reading })
        { history with granted := history.granted ++ [slotToken poolId id slot] }
  | release {id : Nat} {slot : SlotStorage} (hSlot : slots[id]? = some slot)
      (hReading : slot.state = .reading) :
      Turn poolId slots history (slots.set id (slot.freed false)) history
  | discard {id : Nat} {slot : SlotStorage} (hSlot : slots[id]? = some slot)
      (hPublished : slot.state = .published) :
      Turn poolId slots history (slots.set id (slot.freed false))
        { history with discarded := history.discarded ++ [slotToken poolId id slot] }

-- ---------------------------------------------------------------------------
-- Tokens given out
-- ---------------------------------------------------------------------------

/-- The slot of a token has been claimed again since, or is as `P` says. -/
def Past (poolId : Nat) (slots : List SlotStorage) (token : FrameSlotToken)
    (P : SlotStorage → Prop) : Prop :=
  ∃ slot, slots[token.slotId]? = some slot ∧ (token.generation < slot.generation ∨
    token = slotToken poolId token.slotId slot ∧ P slot)

/-- The slot of a token moves on. -/
theorem Past.set (h : Past poolId slots token P) (hSlot : slots[id]? = some slot)
    (hNext : slot.generation < next.generation ∨
      next.generation = slot.generation ∧ (P slot → P next)) :
    Past poolId (slots.set id next) token P := by
  obtain ⟨found, hFound, hPast⟩ := h
  by_cases hSame : id = token.slotId
  · subst hSame
    obtain rfl := Option.some.inj (hSlot.symm.trans hFound)
    obtain ⟨hLt, -⟩ := List.getElem?_eq_some_iff.mp hSlot
    refine ⟨next, List.getElem?_set_self hLt, ?_⟩
    rcases hNext with hNewer | ⟨hStill, hKeep⟩
    · refine Or.inl ?_
      rcases hPast with hOld | ⟨hToken, -⟩
      · exact Nat.lt_trans hOld hNewer
      · rw [hToken]
        exact hNewer
    · rcases hPast with hOld | ⟨hToken, hP⟩
      · exact Or.inl (hStill ▸ hOld)
      · refine Or.inr ⟨?_, hKeep hP⟩
        rw [slotToken, hStill]
        exact hToken
  · exact ⟨found, by rw [List.getElem?_set_ne hSame, hFound], hPast⟩

/-- The token of a slot as it is now has not been left behind. -/
theorem Past.current (h : Past poolId slots (slotToken poolId id slot) P)
    (hSlot : slots[id]? = some slot) : P slot := by
  obtain ⟨found, hFound, hPast⟩ := h
  obtain rfl := Option.some.inj (hSlot.symm.trans hFound)
  rcases hPast with hOld | ⟨-, hP⟩
  · exact absurd hOld (Nat.lt_irrefl _)
  · exact hP

/-- The token is the slot's own, and the slot is as `P` says. -/
def Current (poolId : Nat) (slots : List SlotStorage) (token : FrameSlotToken)
    (P : SlotStorage → Prop) : Prop :=
  ∃ slot, slots[token.slotId]? = some slot ∧ token = slotToken poolId token.slotId slot ∧ P slot

/-- A slot is replaced by one that is still what its token says. -/
theorem Current.set (h : Current poolId slots token P) (hSlot : slots[id]? = some slot)
    (hNext : token = slotToken poolId id slot → P slot →
      next.generation = slot.generation ∧ P next) :
    Current poolId (slots.set id next) token P := by
  obtain ⟨found, hFound, hToken, hP⟩ := h
  by_cases hSame : id = token.slotId
  · subst hSame
    obtain rfl := Option.some.inj (hSlot.symm.trans hFound)
    obtain ⟨hLt, -⟩ := List.getElem?_eq_some_iff.mp hSlot
    obtain ⟨hStill, hKeep⟩ := hNext hToken hP
    refine ⟨next, List.getElem?_set_self hLt, ?_, hKeep⟩
    rw [slotToken, hStill]
    exact hToken
  · exact ⟨found, by rw [List.getElem?_set_ne hSame, hFound], hToken, hP⟩

/-- The token that the next claim gives out is new. -/
theorem Past.not_claimed (h : Past poolId slots (slotToken poolId id slot.claimed) P)
    (hSlot : slots[id]? = some slot) : False := by
  obtain ⟨found, hFound, hPast⟩ := h
  obtain rfl := Option.some.inj (hSlot.symm.trans hFound)
  rcases hPast with hOld | ⟨hToken, -⟩
  · exact Nat.not_succ_lt_self hOld
  · exact Nat.succ_ne_self _ (congrArg FrameSlotToken.generation hToken)

/-- The slot still shows the frame, or has been read or discarded. -/
def PublishedFrame.ShownBy (frame : PublishedFrame) (slot : SlotStorage) : Prop :=
  slot.state ≠ .writing ∧ (slot.state = .free → slot.wasCancelled = false) ∧
    (slot.state ≠ .free → slot.payloadSize = frame.payloadSize ∧ slot.payload = frame.payload)

/-- The tokens of the history are about generations that the slots have had. -/
structure Traced (poolId : Nat) (slots : List SlotStorage) (history : History) : Prop where
  issued : ∀ token ∈ history.issued, Past poolId slots token fun _ => True
  issuedOnce : history.issued.Nodup
  published : ∀ frame ∈ history.published, Past poolId slots frame.token frame.ShownBy
  publishedOnce : (history.published.map PublishedFrame.token).Nodup
  spent : ∀ token ∈ history.granted ++ history.discarded,
    Past poolId slots token fun slot => slot.state = .reading ∨ slot.state = .free
  spentOnce : (history.granted ++ history.discarded).Nodup
  shown : ∀ id slot, slots[id]? = some slot → slot.state = .published ∨ slot.state = .reading →
    ∃ frame ∈ history.published, frame.token = slotToken poolId id slot

namespace Traced

/-- A slot is claimed again, or moves on as the tokens on it allow. -/
theorem set (h : Traced poolId slots history) (hSlot : slots[id]? = some slot)
    (hNext : slot.generation < next.generation ∨ next.generation = slot.generation ∧
      (∀ frame : PublishedFrame, frame.ShownBy slot → frame.ShownBy next) ∧
      (slot.state = .reading ∨ slot.state = .free → next.state = .reading ∨ next.state = .free))
    (hShown : next.state = .published ∨ next.state = .reading →
      ∃ frame ∈ history.published, frame.token = slotToken poolId id next) :
    Traced poolId (slots.set id next) history := by
  refine ⟨fun token hToken => ?_, h.issuedOnce, fun frame hFrame => ?_, h.publishedOnce,
    fun token hToken => ?_, h.spentOnce, fun other found hFound => ?_⟩
  · exact (h.issued token hToken).set hSlot (hNext.imp_right fun hStill => ⟨hStill.1, fun hP => hP⟩)
  · exact (h.published frame hFrame).set hSlot
      (hNext.imp_right fun hStill => ⟨hStill.1, hStill.2.1 frame⟩)
  · exact (h.spent token hToken).set hSlot (hNext.imp_right fun hStill => ⟨hStill.1, hStill.2.2⟩)
  · by_cases hSame : id = other
    · subst hSame
      obtain ⟨hLt, -⟩ := List.getElem?_eq_some_iff.mp hSlot
      rw [List.getElem?_set_self hLt] at hFound
      obtain rfl := Option.some.inj hFound
      exact hShown
    · rw [List.getElem?_set_ne hSame] at hFound
      exact h.shown other found hFound

/-- Nothing that was published or spent is being written. -/
theorem setWriting (h : Traced poolId slots history) (hSlot : slots[id]? = some slot)
    (hWriting : slot.state = .writing) (hGeneration : next.generation = slot.generation)
    (hState : next.state = .writing ∨ next.state = .free) :
    Traced poolId (slots.set id next) history := by
  refine h.set hSlot (Or.inr ⟨hGeneration, fun frame hShown => ?_, fun hSpent => ?_⟩) fun hShown => ?_
  · exact absurd hWriting hShown.1
  · rw [hWriting] at hSpent
    exact hSpent.elim nofun nofun
  · rcases hState with hNext | hNext <;> rw [hNext] at hShown <;> exact hShown.elim nofun nofun

/-- A slot is claimed, and its token issued. -/
theorem claim (h : Traced poolId slots history) (hSlot : slots[id]? = some slot) :
    Traced poolId (slots.set id slot.claimed)
      { history with issued := history.issued ++ [slotToken poolId id slot.claimed] } := by
  have hSet : Traced poolId (slots.set id slot.claimed) history :=
    h.set hSlot (Or.inl (Nat.lt_succ_self _)) fun hShown => hShown.elim nofun nofun
  obtain ⟨hLt, -⟩ := List.getElem?_eq_some_iff.mp hSlot
  refine ⟨forall_mem_append_one ?_ hSet.issued, ?_, hSet.published, hSet.publishedOnce, hSet.spent,
    hSet.spentOnce, hSet.shown⟩
  · exact ⟨slot.claimed, List.getElem?_set_self hLt, Or.inr ⟨rfl, trivial⟩⟩
  · refine List.nodup_append.mpr ⟨h.issuedOnce, List.nodup_singleton _, ?_⟩
    intro old hOld new hNew hEq
    rw [List.mem_singleton.mp hNew] at hEq
    exact (hEq ▸ h.issued old hOld : Past _ _ _ _).not_claimed hSlot

/-- A slot is published, and its token with it. -/
theorem publish (h : Traced poolId slots history) (hSlot : slots[id]? = some slot)
    (hWriting : slot.state = .writing) :
    Traced poolId (slots.set id { slot with state := .published })
      { history with published := history.published ++ [{
        token := slotToken poolId id slot
        payloadSize := slot.payloadSize, payload := slot.payload }] } := by
  obtain ⟨hLt, -⟩ := List.getElem?_eq_some_iff.mp hSlot
  -- the tokens that were out before do not see the change
  have hIssued : ∀ token ∈ history.issued,
      Past poolId (slots.set id { slot with state := .published }) token fun _ => True :=
    fun token hToken => (h.issued token hToken).set hSlot (Or.inr ⟨rfl, fun hP => hP⟩)
  have hPublished : ∀ frame ∈ history.published,
      Past poolId (slots.set id { slot with state := .published }) frame.token frame.ShownBy :=
    fun frame hFrame => (h.published frame hFrame).set hSlot
      (Or.inr ⟨rfl, fun hShown => absurd hWriting hShown.1⟩)
  have hSpent : ∀ token ∈ history.granted ++ history.discarded,
      Past poolId (slots.set id { slot with state := .published }) token
        fun slot => slot.state = .reading ∨ slot.state = .free := by
    refine fun token hToken => (h.spent token hToken).set hSlot (Or.inr ⟨rfl, fun hWas => ?_⟩)
    rw [hWriting] at hWas
    exact hWas.elim nofun nofun
  refine ⟨hIssued, h.issuedOnce, forall_mem_append_one ?_ hPublished, ?_, hSpent, h.spentOnce,
    fun other found hFound hShown => ?_⟩
  · exact ⟨_, List.getElem?_set_self hLt, Or.inr ⟨rfl, nofun, nofun, fun _ => ⟨rfl, rfl⟩⟩⟩
  · rw [List.map_append]
    refine List.nodup_append.mpr ⟨h.publishedOnce, List.nodup_singleton _, ?_⟩
    intro old hOld new hNew hEq
    obtain ⟨frame, hFrame, rfl⟩ := List.mem_map.mp hOld
    rw [List.mem_singleton.mp hNew] at hEq
    have hPast := h.published frame hFrame
    rw [hEq] at hPast
    exact (hPast.current hSlot).1 hWriting
  · by_cases hSame : id = other
    · subst hSame
      rw [List.getElem?_set_self hLt] at hFound
      obtain rfl := Option.some.inj hFound
      exact ⟨_, List.mem_append_right _ List.mem_cons_self, rfl⟩
    · rw [List.getElem?_set_ne hSame] at hFound
      obtain ⟨frame, hFrame, hToken⟩ := h.shown other found hFound hShown
      exact ⟨frame, List.mem_append_left _ hFrame, hToken⟩

/-- A published slot is granted or discarded; its token has not been so before. -/
theorem not_spent (h : Traced poolId slots history) (hSlot : slots[id]? = some slot)
    (hPublished : slot.state = .published) :
    slotToken poolId id slot ∉ history.granted ++ history.discarded := by
  intro hMem
  have hWas := (h.spent _ hMem).current hSlot
  rw [hPublished] at hWas
  exact hWas.elim nofun nofun

/-- The slot of a published token changes its state. -/
theorem setPublished (h : Traced poolId slots history) (hSlot : slots[id]? = some slot)
    (hPublished : slot.state = .published) (hGeneration : next.generation = slot.generation)
    (hState : next.state = .reading ∧ next.payloadSize = slot.payloadSize ∧
      next.payload = slot.payload ∨ next.state = .free ∧ next.wasCancelled = false) :
    Traced poolId (slots.set id next) history := by
  have hBusy : slot.state ≠ .free := by
    rw [hPublished]
    decide
  refine h.set hSlot (Or.inr ⟨hGeneration, fun frame hShown =>
    ⟨?_, fun hNext => ?_, fun hNext => ?_⟩, fun hSpent => ?_⟩) fun _ => ?_
  · rcases hState with ⟨hNext, -⟩ | ⟨hNext, -⟩ <;> rw [hNext] <;> decide
  · rcases hState with ⟨hReading, -⟩ | ⟨-, hDone⟩
    · exact nomatch hReading.symm.trans hNext
    · exact hDone
  · rcases hState with ⟨-, hSize, hPayload⟩ | ⟨hFree, -⟩
    · rw [hSize, hPayload]
      exact hShown.2.2 hBusy
    · exact absurd hFree hNext
  · rw [hPublished] at hSpent
    exact hSpent.elim nofun nofun
  · obtain ⟨frame, hFrame, hToken⟩ := h.shown id slot hSlot (Or.inl hPublished)
    refine ⟨frame, hFrame, ?_⟩
    rw [hToken, slotToken, slotToken, hGeneration]

/-- What is past stays past. -/
theorem past_set (hSlot : slots[id]? = some slot) (hGeneration : next.generation = slot.generation)
    (hNext : P next) : Past poolId (slots.set id next) (slotToken poolId id slot) P := by
  obtain ⟨hLt, -⟩ := List.getElem?_eq_some_iff.mp hSlot
  refine ⟨next, List.getElem?_set_self hLt, Or.inr ⟨?_, hNext⟩⟩
  show slotToken poolId id slot = slotToken poolId id next
  rw [slotToken, slotToken, hGeneration]

/-- A token is granted once. -/
theorem grant (h : Traced poolId slots history) (hSlot : slots[id]? = some slot)
    (hPublished : slot.state = .published) :
    Traced poolId (slots.set id { slot with state := .reading })
      { history with granted := history.granted ++ [slotToken poolId id slot] } := by
  have hSet : Traced poolId (slots.set id { slot with state := .reading }) history :=
    h.setPublished hSlot hPublished rfl (Or.inl ⟨rfl, rfl, rfl⟩)
  have hOrder : (history.granted ++ [slotToken poolId id slot] ++ history.discarded).Perm
      (slotToken poolId id slot :: (history.granted ++ history.discarded)) := by
    rw [List.append_assoc, List.singleton_append]
    exact List.perm_middle
  refine ⟨hSet.issued, hSet.issuedOnce, hSet.published, hSet.publishedOnce, fun token hToken => ?_,
    ?_, hSet.shown⟩
  · rcases List.mem_cons.mp (hOrder.mem_iff.mp hToken) with rfl | hOld
    · exact past_set hSlot rfl (Or.inl rfl)
    · exact hSet.spent token hOld
  · exact hOrder.nodup_iff.mpr (List.nodup_cons.mpr ⟨h.not_spent hSlot hPublished, h.spentOnce⟩)

/-- A token that is discarded. -/
theorem discard (h : Traced poolId slots history) (hSlot : slots[id]? = some slot)
    (hPublished : slot.state = .published) :
    Traced poolId (slots.set id (slot.freed false))
      { history with discarded := history.discarded ++ [slotToken poolId id slot] } := by
  have hSet : Traced poolId (slots.set id (slot.freed false)) history :=
    h.setPublished hSlot hPublished rfl (Or.inr ⟨rfl, rfl⟩)
  have hOrder : (history.granted ++ (history.discarded ++ [slotToken poolId id slot])).Perm
      (slotToken poolId id slot :: (history.granted ++ history.discarded)) := by
    rw [← List.append_assoc]
    exact List.perm_append_singleton _ _
  refine ⟨hSet.issued, hSet.issuedOnce, hSet.published, hSet.publishedOnce, fun token hToken => ?_,
    ?_, hSet.shown⟩
  · rcases List.mem_cons.mp (hOrder.mem_iff.mp hToken) with rfl | hOld
    · exact past_set hSlot rfl (Or.inr rfl)
    · exact hSet.spent token hOld
  · exact hOrder.nodup_iff.mpr (List.nodup_cons.mpr ⟨h.not_spent hSlot hPublished, h.spentOnce⟩)

/-- A slot is released. -/
theorem release (h : Traced poolId slots history) (hSlot : slots[id]? = some slot) :
    Traced poolId (slots.set id (slot.freed false)) history := by
  refine h.set hSlot (Or.inr ⟨rfl, fun frame hShown => ⟨nofun, fun _ => rfl, fun hNo => absurd rfl hNo⟩,
    fun _ => Or.inr rfl⟩) fun hShown => hShown.elim nofun nofun

/-- Every turn keeps the trace. -/
theorem turn (h : Traced poolId slots history) (hTurn : Turn poolId slots history slots' history') :
    Traced poolId slots' history' := by
  cases hTurn with
  | idle => exact h
  | claim hSlot hFree => exact h.claim hSlot
  | store hSlot hWriting hState hGeneration =>
    exact h.setWriting hSlot hWriting hGeneration (Or.inl hState)
  | publish hSlot hWriting => exact h.publish hSlot hWriting
  | cancel hSlot hWriting => exact h.setWriting hSlot hWriting rfl (Or.inr rfl)
  | grant hSlot hPublished => exact h.grant hSlot hPublished
  | release hSlot hReading => exact h.release hSlot
  | discard hSlot hPublished => exact h.discard hSlot hPublished

end Traced

end Ithax.Threading
