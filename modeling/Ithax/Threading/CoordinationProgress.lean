import Ithax.Threading.CoordinationRuns

/-!
# Every call of the owner comes back

The owner waits for the consumer to have read its record, and for both threads to end. As
long as the three threads are scheduled again and again it waits in vain for neither,
whether or not its wait for a record is cut short.

## Results

* `ready_of_waits`   — the owner does not wait when both threads do.
* `returns_of_run`   — under a fair scheduler every call of the owner comes back.
-/

namespace Ithax.Threading

open Ithax.Lib

-- ---------------------------------------------------------------------------
-- The work that is left
-- ---------------------------------------------------------------------------

/-- How many sections of its call the owner has before it, its waits counted. -/
def Owner.work : Owner → Nat
  | ready => 0
  | abandoned _ _ | joining _ => 1
  | abandoning _ _ | stoppingSlots _ => 2
  | publishing _ | stopping _ => 3

/-- A record costs more than all that a thread has to do with it, and a section of one of the
two threads more than what it leaves to be recorded or acknowledged. -/
def Board.work (b : Board) : Nat :=
  4 * b.toOutline.work + 61 * b.coordination.pending.toList.length + 60 * b.record.toList.length +
    b.acknowledges.toNat + b.producerError.isSome.toNat + b.consumerError.isSome.toNat +
    b.owner.work

/-- Each section of a thread, and of the owner inside a call, leaves less to do. -/
theorem BoardStep.work_lt {b b' : Board} (h : BoardStep b b')
    (hCall : b.owner ≠ .ready ∨ b'.owner = b.owner ∧ b'.calls = b.calls) : b'.work < b.work := by
  have hBit : ∀ flag : Bool, flag.toNat ≤ 1 := Bool.toNat_le
  have hReady : ∀ {P : Prop}, b.owner = .ready → b'.owner ≠ b.owner ∨ b'.calls ≠ b.calls → P := by
    intro P hOwner hOther
    rcases hCall with hBusy | ⟨hSame, hCalls⟩
    · exact absurd hOwner hBusy
    · exact (hOther.elim (fun hNot => hNot hSame) fun hNot => hNot hCalls).elim
  cases h with
  | refused record error hOwner => exact hReady hOwner (Or.inr (by simp))
  | accepted tick worldHash hOwner => exact hReady hOwner (Or.inl (by rw [hOwner]; nofun))
  | stopRequested noexcept hOwner => exact hReady hOwner (Or.inl (by rw [hOwner]; nofun))
  | published hOwner | rethrown hOwner | abandoned hOwner | gaveUp hOwner | stopping hOwner
  | stoppingSlots hOwner | joined _ _ hOwner =>
    simp only [Board.work, Outline.work, hOwner, Owner.work]
    omega
  | timedOut error hOwner =>
    simp only [Board.work, Outline.work, hOwner, Owner.work, FrameCoordination.halt,
      Option.toList_none, List.length_nil]
    omega
  | took hIdle hNone hPending =>
    simp only [Board.work, Outline.work, hNone, hPending, Option.toList_some, Option.toList_none,
      List.length_nil, List.length_singleton]
    omega
  | @gave record o' fault hIdle hRecord hTurn =>
    have hLess : o'.work ≤ b.toOutline.work + 13 := by
      cases hTurn with
      | blocked =>
        simp only [Outline.work, hIdle, Producer.work]
        omega
      | acquired hTurn =>
        have hWork := hTurn.work_lt
        simp only [Outline.work, hIdle, Producer.work] at hWork ⊢
        omega
    have hThrown := hBit (CoordinatedExchange.thrownAfter b.producer.raises o'.producer.raises fault
      b.producerError).isSome
    simp only [Board.work, hRecord, Option.toList_some, Option.toList_none, List.length_nil,
      List.length_singleton]
    omega
  | left hIdle =>
    simp only [Board.work, Outline.work, hIdle, Producer.work]
    omega
  | producerFailed hFailing hError | consumerFailed hFailing hError =>
    simp only [Board.work, Outline.work, hError, FrameCoordination.halt, Option.toList_none,
      List.length_nil, Option.isSome_some, Option.isSome_none, Bool.toNat_true, Bool.toNat_false]
    omega
  | @produced o' fault hRecorded hTurn =>
    have hLess := hTurn.work_lt
    have hThrown := hBit (CoordinatedExchange.thrownAfter b.producer.raises o'.producer.raises fault
      b.producerError).isSome
    simp only [Board.work]
    omega
  | acknowledged hReleased =>
    simp only [Board.work, Outline.work, hReleased, Bool.toNat_true, Bool.toNat_false]
    omega
  | @consumed o' checks fault hNone hRecorded hJudges hTurn =>
    have hLess := hTurn.work_lt
    have hThrown := hBit (CoordinatedExchange.thrownAfter b.consumer.raises o'.consumer.raises fault
      b.consumerError).isSome
    have hReleased := hBit (b.consumer.releases true)
    simp only [Board.work]
    omega

namespace CoordinatedExchange

variable {s s' : CoordinatedExchange}

-- ---------------------------------------------------------------------------
-- Who waits
-- ---------------------------------------------------------------------------

/-- The three threads. -/
inductive ExchangeThread where
  | owner
  | producer
  | consumer
  deriving DecidableEq, Repr

instance : Fintype ExchangeThread where
  elems := {.owner, .producer, .consumer}
  complete thread := by cases thread <;> decide

/-- The thread has nothing to do before another one goes on. -/
def Waits (s : CoordinatedExchange) : ExchangeThread → Prop
  | .owner =>
    match s.owner with
    | .ready => True
    | .publishing _ => s.completed = false
    | .joining _ => ¬(s.exchange.producer = .stopped ∧ s.exchange.consumer = .stopped)
    | _ => False
  | .producer => s.exchange.Waits .producer ∧ (s.exchange.producer = .idle →
      s.record = none ∧ s.coordination.pending = none ∧ s.coordination.stopRequested = false)
  | .consumer => s.exchange.Waits .consumer ∧ s.acknowledges = false

/-- A thread goes on waiting while nothing changes. -/
theorem waits_of_same (hSame : s.exchange.Same s'.exchange) (hBoard : s'.board = s.board)
    {thread : ExchangeThread} (hWaits : s.Waits thread) : s'.Waits thread := by
  have hOwner : s'.owner = s.owner := congrArg Board.owner hBoard
  have hCoordination : s'.coordination = s.coordination := congrArg Board.coordination hBoard
  have hRecord : s'.record = s.record := congrArg Board.record hBoard
  have hAck : s'.acknowledges = s.acknowledges := congrArg Board.acknowledges hBoard
  cases thread with
  | owner =>
    simp only [Waits, completed] at hWaits ⊢
    rw [hOwner, hCoordination, hSame.producer, hSame.consumer]
    exact hWaits
  | producer =>
    refine ⟨(hSame.waits .producer).mpr hWaits.1, ?_⟩
    rw [hSame.producer, hRecord, hCoordination]
    exact hWaits.2
  | consumer => exact ⟨(hSame.waits .consumer).mpr hWaits.1, hAck.trans hWaits.2⟩

/-- With both threads waiting and nobody having stopped them the record was read. -/
theorem not_inFlight_of_atRest (h : Orderly s) (hProducer : s.Waits .producer)
    (hConsumer : s.Waits .consumer) (hRest : s.exchange.AtRest)
    (hGoes : s.coordination.stopRequested = false) : s.coordination.inFlight = false := by
  have hNever : ∀ {P : Prop}, s.coordination.stopRequested = true → P := fun hStop => by
    cases hGoes.symm.trans hStop
  have hIdle : s.exchange.producer = .idle := hRest.1.resolve_right fun hStopped =>
    hNever (h.flags.producerOver (by rw [show s.board.producer = _ from hStopped]; rfl))
  obtain ⟨hRecord, hPending, -⟩ := hProducer.2 hIdle
  obtain ⟨hPlace, -, hQueued⟩ := hRest.2.resolve_left fun hStopped =>
    hNever (h.flags.consumerOver hStopped)
  have hTaken : s.board.taken = none :=
    h.accounts.taken (by rw [show s.board.consumer = _ from hPlace]; rfl)
  have hUnderway : s.board.underway = [] := by
    have hTaken : s.exchange.taken = none := hTaken
    simp [Board.underway, Outline.underway, board, FrameExchange.outline, hTaken, hQueued, hIdle,
      hRecord, hPending, Producer.unsent, Producer.record]
  by_contra hFlight
  rcases (h.accounts.flight hGoes).mp (Bool.eq_true_of_not_eq_false hFlight) with
    hSome | hRaises | hBusy | hAck
  · exact hSome hUnderway
  · rw [show s.board.producer = _ from hIdle] at hRaises
    cases hRaises
  · rw [show s.board.consumer = _ from hPlace] at hBusy
    cases hBusy
  · cases hConsumer.2.symm.trans hAck

/-- When all three threads wait, the owner is not inside a call. -/
theorem ready_of_waits (h : Orderly s) (hWaits : ∀ thread, s.Waits thread) :
    s.owner = .ready ∧ s.exchange.AtRest := by
  have hProducer := hWaits .producer
  have hConsumer := hWaits .consumer
  have hRest : s.exchange.AtRest := h.regular.atRest h.settled fun role => by
    cases role with
    | producer => exact hProducer.1
    | consumer => exact hConsumer.1
  refine ⟨?_, hRest⟩
  have hOwner := hWaits .owner
  simp only [Waits] at hOwner
  cases hPlace : s.owner with
  | ready => rfl
  | publishing record =>
    rw [hPlace] at hOwner
    simp only [completed, decide_eq_false_iff_not, not_or, Bool.not_eq_true, Bool.not_eq_false]
      at hOwner
    -- a coordination that is halted has no record in flight
    have hGoes : s.coordination.stopRequested = false := by
      by_contra hStop
      cases hOwner.1.symm.trans (h.flags.halted (Bool.eq_true_of_not_eq_false hStop)).2
    cases hOwner.1.symm.trans (not_inFlight_of_atRest h hProducer hConsumer hRest hGoes)
  | joining noexcept =>
    rw [hPlace] at hOwner
    have hStop := h.flags.stopping (by rw [show s.board.owner = _ from hPlace]; rfl)
    have hClosed := h.handed.closing (by rw [show s.board.owner = _ from hPlace]; rfl)
    refine absurd ⟨hRest.1.resolve_left fun hIdle => ?_,
      hRest.2.resolve_right fun hOpen => ?_⟩ hOwner
    · cases (hProducer.2 hIdle).2.2.symm.trans hStop
    · cases hOpen.2.1.symm.trans hClosed
  | abandoning | abandoned | stopping | stoppingSlots =>
    rw [hPlace] at hOwner
    exact hOwner.elim

-- ---------------------------------------------------------------------------
-- Turns
-- ---------------------------------------------------------------------------

/-- The thread that runs next; a wait of the owner may have run out of time. -/
inductive ExchangeTurn where
  | owner (late : Bool)
  | producer
  | consumer
  deriving DecidableEq, Repr

/-- Whose turn it is. -/
def ExchangeTurn.thread : ExchangeTurn → ExchangeThread
  | owner _ => .owner
  | producer => .producer
  | consumer => .consumer

/-- The exchange after a turn; a thread that has nothing to do leaves it as it is. -/
def turn (s : CoordinatedExchange) : ExchangeTurn → CoordinatedExchange
  | .owner false => (s.step .owner).getD s
  | .owner true => ((s.step .timeOut).orElse fun _ => s.step .owner).getD s
  | .producer => (s.step .producer).getD s
  | .consumer => (s.step .consumer).getD s

/-- As long as nothing has terminated, the owner's step is its section. -/
theorem step_owner (h : Orderly s) : s.step .owner = s.stepOwner := by
  unfold step
  rw [if_neg (by rw [show s.terminated = false from h.handed.terminated]; decide)]

/-- So is the producer's. -/
theorem step_producer (h : Orderly s) : s.step .producer = s.stepProducer := by
  unfold step
  rw [if_neg (by rw [show s.terminated = false from h.handed.terminated]; decide)]

/-- So is the consumer's. -/
theorem step_consumer (h : Orderly s) : s.step .consumer = s.stepConsumer := by
  unfold step
  rw [if_neg (by rw [show s.terminated = false from h.handed.terminated]; decide)]

/-- An owner without a section waits. -/
theorem waits_of_stepOwner_eq_none (h : Orderly s) (hNone : s.stepOwner = none) :
    s.Waits .owner := by
  unfold stepOwner at hNone
  simp only [Waits]
  cases hOwner : s.owner with
  | ready => trivial
  | publishing record =>
    rw [hOwner] at hNone
    simp only at hNone
    split at hNone
    · cases hNone
    · rename_i hWaits
      exact Bool.eq_false_of_not_eq_true hWaits
  | joining noexcept =>
    rw [hOwner] at hNone
    simp only at hNone
    split at hNone
    · split at hNone <;> cases hNone
    · rename_i hWaits
      exact hWaits
  | abandoning record error | stopping noexcept =>
    rw [hOwner] at hNone
    simp only [FrameExchange.step_closeChannel h.regular] at hNone
    cases hNone
  | abandoned record error | stoppingSlots noexcept =>
    rw [hOwner] at hNone
    simp only [FrameExchange.step_closeSlots h.regular] at hNone
    cases hNone

/-- A producer without a section waits. -/
theorem waits_of_stepProducer_eq_none (h : Orderly s) (hNone : s.stepProducer = none) :
    s.Waits .producer := by
  have hRunning : s.exchange.terminated = false := h.regular.sound.running
  unfold stepProducer at hNone
  split at hNone
  · rename_i record hIdle hRecord
    have hStep := Option.map_eq_none_iff.mp hNone
    unfold FrameExchange.step at hStep
    rw [if_neg (by rw [hRunning]; decide)] at hStep
    simp only [hIdle, if_true] at hStep
    cases hStep
  · cases hNone
  · rename_i hIdle hRecord hPending
    split at hNone
    · have hStep := Option.map_eq_none_iff.mp hNone
      unfold FrameExchange.step at hStep
      rw [if_neg (by rw [hRunning]; decide)] at hStep
      simp only [hIdle, if_true] at hStep
      cases hStep
    · rename_i hGoes
      refine ⟨?_, fun _ => ⟨hRecord, hPending, Bool.eq_false_of_not_eq_true hGoes⟩⟩
      simp only [FrameExchange.Waits, hIdle]
  · cases hNone
  · rename_i hNotGiven hNotTaken hNotLeft hNotRecorded
    have hStep := Option.map_eq_none_iff.mp hNone
    rw [FrameExchange.step_producer h.regular] at hStep
    refine ⟨FrameExchange.waits_of_stepProducer_eq_none h.settled hStep, fun hIdle => ?_⟩
    cases hRecord : s.record with
    | some record => exact (hNotGiven record hIdle hRecord).elim
    | none =>
      cases hPending : s.coordination.pending with
      | some record => exact (hNotTaken record hIdle hRecord hPending).elim
      | none => exact (hNotLeft hIdle hRecord hPending).elim

/-- A consumer without a section waits. -/
theorem waits_of_stepConsumer_eq_none (h : Orderly s) (hNone : s.stepConsumer = none) :
    s.Waits .consumer := by
  unfold stepConsumer at hNone
  split at hNone
  · cases hNone
  · rename_i hAck
    split at hNone
    · cases hNone
    · have hStep := Option.map_eq_none_iff.mp hNone
      rw [FrameExchange.step_consumer h.regular] at hStep
      exact ⟨FrameExchange.waits_of_stepConsumer_eq_none hStep, Bool.eq_false_of_not_eq_true hAck⟩

/-- A section that leaves all as it was has waited. -/
theorem producer_cases (h : Orderly s) (hStep : s.stepProducer = some s') :
    (s.Waits .producer ∧ s.exchange.Same s'.exchange ∧ s'.board = s.board) ∨
      s'.board.work < s.board.work := by
  have hTaken := producerStep_of_step h.regular hStep
  rcases board_of_producerStep h.regular hTaken with ⟨hWaits, hSame, hBoard⟩ | hNext
  · refine Or.inl ⟨⟨hWaits, fun hIdle => ?_⟩, hSame, hBoard⟩
    -- an idle producer has either nothing to do or changes something
    cases hTaken with
    | took _ hNone => cases hNone.symm.trans (congrArg Board.record hBoard).symm
    | gave fault hRecord => cases hRecord.symm.trans (congrArg Board.record hBoard).symm
    | left => cases hIdle.symm.trans (hSame.producer.symm.trans rfl)
    | recorded hFailing => cases hIdle.symm.trans hFailing
    | turned fault hRecorded hOne =>
      unfold FrameExchange.stepProducer at hOne
      rw [hIdle] at hOne
      cases hOne
  · refine Or.inr (hNext.work_lt (Or.inr ?_))
    cases hTaken <;> exact ⟨rfl, rfl⟩

/-- A section of the consumer works off something, or is one more look at an empty channel. -/
theorem consumer_cases (h : Orderly s) (hStep : s.stepConsumer = some s') :
    (s.Waits .consumer ∧ s.exchange.Same s'.exchange ∧ s'.board = s.board) ∨
      s'.board.work < s.board.work := by
  have hTaken := consumerStep_of_step h.regular hStep
  rcases board_of_consumerStep h.regular hTaken with ⟨hWaits, hSame, hBoard⟩ | hNext
  · refine Or.inl ⟨⟨hWaits, ?_⟩, hSame, hBoard⟩
    cases hTaken with
    | acknowledged => exact (congrArg Board.acknowledges hBoard).symm
    | recorded hFailing =>
      simp only [FrameExchange.Waits, hFailing] at hWaits
    | turned hNone => exact hNone
  · refine Or.inr (hNext.work_lt (Or.inr ?_))
    cases hTaken <;> exact ⟨rfl, rfl⟩

/-- A turn of the owner works off something, or it waits and nothing changes. -/
theorem owner_cases (h : Orderly s) (hNext : s' = (s.step .owner).getD s) :
    (s.Waits .owner ∧ s.exchange.Same s'.exchange ∧ s'.board = s.board) ∨
      s'.board.work < s.board.work := by
  rw [step_owner h] at hNext
  cases hStep : s.stepOwner with
  | none =>
    rw [hStep] at hNext
    subst hNext
    exact Or.inl ⟨waits_of_stepOwner_eq_none h hStep, ⟨rfl, rfl⟩, rfl⟩
  | some next =>
    rw [hStep] at hNext
    subst hNext
    refine Or.inr ((board_of_owner h.regular h.handed.terminated hStep).work_lt (Or.inl ?_))
    intro hReady
    unfold stepOwner at hStep
    rw [show s.owner = .ready from hReady] at hStep
    cases hStep

/-- A turn of a thread that does not wait uses up some of the work. -/
theorem turn_cases (h : Orderly s) (t : ExchangeTurn) :
    (s.Waits t.thread ∧ s.exchange.Same (s.turn t).exchange ∧ (s.turn t).board = s.board) ∨
      (s.turn t).board.work < s.board.work := by
  unfold turn
  cases t with
  | owner late =>
    cases late with
    | false => exact owner_cases h rfl
    | true =>
      cases hStep : s.step .timeOut with
      | none => exact owner_cases h rfl
      | some next =>
        refine Or.inr ((board_of_timeOut hStep).work_lt (Or.inl fun hReady => ?_))
        unfold step at hStep
        rw [if_neg (by rw [show s.terminated = false from h.handed.terminated]; decide)] at hStep
        simp only [show s.owner = .ready from hReady] at hStep
        cases hStep
  | producer =>
    simp only [step_producer h]
    cases hStep : s.stepProducer with
    | none => exact Or.inl ⟨waits_of_stepProducer_eq_none h hStep, ⟨rfl, rfl⟩, rfl⟩
    | some next => exact producer_cases h hStep
  | consumer =>
    simp only [step_consumer h]
    cases hStep : s.stepConsumer with
    | none => exact Or.inl ⟨waits_of_stepConsumer_eq_none h hStep, ⟨rfl, rfl⟩, rfl⟩
    | some next => exact consumer_cases h hStep

/-- The invariant survives a turn. -/
theorem orderly_turn (h : Orderly s) (t : ExchangeTurn) : Orderly (s.turn t) := by
  have hStep : ∀ event, Orderly ((s.step event).getD s) := by
    intro event
    cases hNext : s.step event with
    | none => exact h
    | some next => exact h.step hNext
  unfold turn
  cases t with
  | owner late =>
    cases late with
    | false => exact hStep .owner
    | true =>
      cases hNext : s.step .timeOut with
      | none => exact hStep .owner
      | some next => exact h.step hNext
  | producer => exact hStep .producer
  | consumer => exact hStep .consumer

/-- The exchange winds down: a turn works off something, or its thread waits. -/
theorem winds : Winds turn ExchangeTurn.thread Orderly (fun s => s.board.work) Waits where
  keeps _ t h := orderly_turn h t
  turn s t h := by
    rcases turn_cases h t with ⟨hWaits, hSame, hBoard⟩ | hLess
    · exact Or.inr ⟨hWaits, congrArg Board.work hBoard, fun _ => waits_of_same hSame hBoard⟩
    · exact Or.inl hLess

/-- From every state of every run, every call of the owner has come back after finitely many
turns, under any scheduler that keeps coming back to all three threads and whether or not
waits run out of time. Then no frame is on its way. -/
theorem returns_of_run {firstTick : UInt64} {expectedFrames : UInt32} {poolId : Nat}
    {threads : Role → ThreadId} {events : List Event}
    (h : run firstTick expectedFrames poolId threads events = some s)
    {schedule : Nat → ExchangeTurn} (hFair : Fair ExchangeTurn.thread schedule) :
    ∃ n, ∀ m, n ≤ m → (scheduled turn schedule s m).owner = .ready ∧
      (scheduled turn schedule s m).exchange.AtRest := by
  have hStart := (orderly_of_run h).1
  obtain ⟨n, hn⟩ := winds.comes_to_rest hStart hFair
  exact ⟨n, fun m hm => ready_of_waits (winds.keeps_scheduled hStart m) (hn m hm)⟩

/-- The three threads one after the other, and every wait runs out of time. -/
def rotation (n : Nat) : ExchangeTurn :=
  if n % 3 = 0 then .owner true else if n % 3 = 1 then .producer else .consumer

/-- The rotation gives each thread its turn again and again. -/
theorem fair_rotation : Fair ExchangeTurn.thread rotation := by
  intro thread n
  have hFirst : 3 * n % 3 = 0 := by omega
  have hSecond : (3 * n + 1) % 3 = 1 := by omega
  have hThird : (3 * n + 2) % 3 = 2 := by omega
  cases thread with
  | owner => exact ⟨3 * n, by omega, by simp [rotation, hFirst, ExchangeTurn.thread]⟩
  | producer => exact ⟨3 * n + 1, by omega, by simp [rotation, hSecond, ExchangeTurn.thread]⟩
  | consumer => exact ⟨3 * n + 2, by omega, by simp [rotation, hThird, ExchangeTurn.thread]⟩

/-- A record is published and the rotation goes on: the owner gets out of its call. -/
theorem returns_of_run_rotation : ∃ s,
    run 7 1 0 (fun role => if role = .producer then 10 else 20) [.publish 7 99, .producer] =
      some s ∧
    s.owner = .publishing (.ofWords 7 99) ∧
    ∃ n, ∀ m, n ≤ m → (scheduled turn rotation s m).owner = .ready ∧
      (scheduled turn rotation s m).exchange.AtRest := by
  obtain ⟨s, hRun, hOwner⟩ : ∃ s,
      run 7 1 0 (fun role => if role = .producer then 10 else 20) [.publish 7 99, .producer] =
        some s ∧ s.owner = .publishing (.ofWords 7 99) := ⟨_, rfl, rfl⟩
  exact ⟨s, hRun, hOwner, returns_of_run hRun fair_rotation⟩

end CoordinatedExchange

end Ithax.Threading
