import Ithax.Threading.CoordinationFlags

/-!
# One frame at a time

The owner hands over one record at a time, and between two of them the exchange is at
rest: what it has handed over has been read, in order, but for the last record, which may
be on its way or, in an exchange that is halted, lost.

## Results

* `Accounts.step`  — every step of the board keeps it so.
-/

namespace Ithax.Threading

open Ithax.Lib

/-- The record of which a frame was made. -/
def Frame.record (frame : Frame) : FrameRecord where
  tick := frame.packet.generation
  worldHash := frame.packet.worldHash
  bytes := frame.payload

@[simp] theorem FrameRecord.record_frame (record : FrameRecord) (lease : FrameLease) :
    (record.frame lease).record = record := rfl

/-- The consumer has read a frame and is on its way to the owner with it, or has failed. -/
def Consumer.busy : Consumer → Bool
  | releasing _ _ | failing => true
  | _ => false

/-- The consumer takes no frame any more. -/
def Consumer.over : Consumer → Bool
  | releasing _ false | failing | failed | stopped => true
  | _ => false

theorem Consumer.busy_of_raises {consumer : Consumer} (h : consumer.raises = true) :
    consumer.busy = true := by
  cases consumer with
  | releasing | failing => rfl
  | idle | received | waiting | reading | failed | stopped => cases h

theorem Consumer.not_busy_of_seeks {consumer : Consumer} (h : consumer.seeks = true) :
    consumer.busy = false ∧ consumer.raises = false ∧ consumer.releases true = false := by
  cases consumer with
  | received | waiting => exact ⟨rfl, rfl, rfl⟩
  | idle | reading | releasing | failing | failed | stopped => cases h

-- ---------------------------------------------------------------------------
-- The records on their way
-- ---------------------------------------------------------------------------

/-- The records that are in the producer's hand, in the channel or in the consumer's hand,
the oldest first. -/
def Outline.underway (o : Outline) : List FrameRecord :=
  (o.taken.toList ++ o.queued ++ o.producer.unsent).map Frame.record ++ o.producer.record.toList

def Board.underway (b : Board) : List FrameRecord :=
  b.toOutline.underway ++ b.record.toList ++ b.coordination.pending.toList

/-- Something is on its way, or somebody is on his way to the owner. -/
def Board.Active (b : Board) : Prop :=
  b.underway ≠ [] ∨ b.producer.raises = true ∨ b.consumer.busy = true ∨ b.acknowledges = true

/-- The call gives the record to the producer or loses it. -/
theorem AcquireTurn.underway {record : FrameRecord} {o o' : Outline} (h : AcquireTurn record o o') :
    ∃ lost, (o.taken.toList ++ o.queued).map Frame.record ++ [record] = o'.underway ++ lost ∧
      (lost ≠ [] ↔ o'.producer.raises = true) := by
  cases h with
  | refused | threw =>
    refine ⟨[record], ?_, fun _ => rfl, nofun⟩
    simp [Outline.underway, Producer.unsent, Producer.record]
  | claimed =>
    refine ⟨[], ?_, fun hSome => absurd rfl hSome, nofun⟩
    simp [Outline.underway, Producer.unsent, Producer.record]

/-- A section of the producer takes its record on, or loses it. -/
theorem ProducerTurn.underway {o o' : Outline} (h : ProducerTurn o o') :
    ∃ lost, o.underway = o'.underway ++ lost ∧ (lost ≠ [] → o'.producer.raises = true) ∧
      (o'.producer.raises = true →
        lost ≠ [] ∨ o.producer.raises = true ∨ o.slotsClosed = true) := by
  cases h with
  | acquired hProducer hTurn =>
    obtain ⟨lost, hLost, hRaises⟩ := hTurn.underway
    refine ⟨lost, ?_, hRaises.mp, fun hNow => Or.inl (hRaises.mpr hNow)⟩
    rw [← hLost]
    simp [Outline.underway, hProducer, Producer.unsent, Producer.record]
  | @oversized record lease hProducer hExceeds =>
    refine ⟨[record], ?_, fun _ => rfl, fun _ => Or.inl nofun⟩
    simp [Outline.underway, hProducer, Producer.unsent, Producer.record]
  | @rejected frame lease hProducer hClosed =>
    refine ⟨[frame.record], ?_, fun _ => rfl, fun _ => Or.inl nofun⟩
    simp [Outline.underway, hProducer, Producer.unsent, Producer.record]
  | late hProducer hClosed =>
    refine ⟨[], ?_, fun _ => rfl, fun _ => Or.inr (Or.inr hClosed)⟩
    simp [Outline.underway, hProducer, Producer.unsent, Producer.record]
  | unwound hProducer =>
    refine ⟨[], ?_, fun _ => rfl, fun _ => Or.inr (Or.inl (by rw [hProducer]; rfl))⟩
    simp [Outline.underway, hProducer, Producer.unsent, Producer.record]
  | wrote hProducer | sized hProducer | sent hProducer | published hProducer | failed hProducer
  | ended hProducer | closed hProducer =>
    refine ⟨[], ?_, fun hSome => absurd rfl hSome, nofun⟩
    simp [Outline.underway, hProducer, Producer.unsent, Producer.record]

/-- What a section of the producer leaves alone. -/
structure ProducerTurn.Spares (o o' : Outline) : Prop where
  idle : o.producer ≠ .idle
  consumer : o'.consumer = o.consumer
  taken : o'.taken = o.taken
  reads : o'.reads = o.reads
  closed : o.channelClosed = true → o'.channelClosed = true
  /-- A packet is sent into an open channel. -/
  queued : o'.queued = o.queued ∨ o.channelClosed = false ∧ o.underway ≠ []
  sent : ∀ frame lease, o'.producer = .sent frame lease → frame ∈ o'.queued
  raises : o.producer.raises = true → o.producer = .failing ∨ o'.producer.raises = true

theorem ProducerTurn.spares {o o' : Outline} (h : ProducerTurn o o') : Spares o o' := by
  have hQuiet : ∀ {producer : Producer} {Q : Prop}, o.producer = producer →
      producer.raises = false → o.producer.raises = true → Q := by
    intro producer Q hProducer hNot hRaises
    rw [hProducer, hNot] at hRaises
    cases hRaises
  have hBusy : ∀ {producer : Producer}, o.producer = producer → producer ≠ .idle →
      o.producer ≠ .idle := fun hProducer hNot => hProducer ▸ hNot
  cases h with
  | acquired hProducer hTurn =>
    cases hTurn <;>
      exact ⟨hBusy hProducer nofun, rfl, rfl, rfl, fun hClosed => hClosed, Or.inl rfl, nofun,
        hQuiet hProducer rfl⟩
  | sent hProducer hOpen =>
    have hSome : o.underway ≠ [] := by
      simp [Outline.underway, hProducer, Producer.unsent]
    refine ⟨hBusy hProducer nofun, rfl, rfl, rfl, fun hClosed => hClosed, Or.inr ⟨hOpen, hSome⟩,
      fun frame lease hSent => ?_, hQuiet hProducer rfl⟩
    cases hSent
    exact List.mem_append_right _ List.mem_cons_self
  | wrote hProducer | sized hProducer | oversized hProducer | rejected hProducer
  | published hProducer | late hProducer | ended hProducer =>
    exact ⟨hBusy hProducer nofun, rfl, rfl, rfl, fun hClosed => hClosed, Or.inl rfl, nofun,
      hQuiet hProducer rfl⟩
  | unwound hProducer =>
    exact ⟨hBusy hProducer nofun, rfl, rfl, rfl, fun hClosed => hClosed, Or.inl rfl, nofun,
      fun _ => Or.inr rfl⟩
  | failed hProducer =>
    exact ⟨hBusy hProducer nofun, rfl, rfl, rfl, fun _ => rfl, Or.inl rfl, nofun,
      fun _ => Or.inl hProducer⟩
  | closed hProducer =>
    exact ⟨hBusy hProducer nofun, rfl, rfl, rfl, fun _ => rfl, Or.inl rfl, nofun,
      hQuiet hProducer rfl⟩

/-- A section of the consumer takes its frame on, reads it or loses it. -/
theorem ConsumerTurn.underway {checks : Bool} {o o' : Outline} (h : ConsumerTurn checks o o')
    (hTaken : o.consumer.packet = none → o.taken = none) :
    ∃ read lost, o.underway = read ++ lost ++ o'.underway ∧
      o'.reads.map Frame.record = o.reads.map Frame.record ++ read ∧
      (read ++ lost ≠ [] → o'.consumer.busy = true) ∧ (lost ≠ [] → o'.consumer.raises = true) := by
  cases h with
  | received hConsumer hQueued =>
    have hNone := hTaken (by rw [hConsumer]; rfl)
    refine ⟨[], [], ?_, (List.append_nil _).symm, fun hSome => absurd rfl hSome,
      fun hSome => absurd rfl hSome⟩
    simp [Outline.underway, hNone, hQueued]
  | @refused frame hHand hSeeks hClosed =>
    refine ⟨[], [frame.record], ?_, (List.append_nil _).symm, fun _ => rfl, fun _ => rfl⟩
    simp [Outline.underway, hHand]
  | @read frame lease hHand hConsumer =>
    refine ⟨[frame.record], [], ?_, ?_, fun _ => rfl, fun hSome => absurd rfl hSome⟩
    · simp [Outline.underway, hHand]
    · simp
  | drained | asked | granted | released | failed | ended =>
    exact ⟨[], [], rfl, (List.append_nil _).symm, fun hSome => absurd rfl hSome,
      fun hSome => absurd rfl hSome⟩

/-- What a section of the consumer leaves alone. -/
structure ConsumerTurn.Spares (o o' : Outline) : Prop where
  producer : o'.producer = o.producer
  taken : o'.consumer.packet = none → o'.taken = none
  closed : o.channelClosed = true → o'.channelClosed = true
  raises : o.consumer.raises = true → o.consumer = .failing ∨ o'.consumer.raises = true
  busy : o.consumer.busy = true →
    o.consumer = .failing ∨ o'.consumer.busy = true ∨ o.consumer.releases true = true
  released : o.consumer.releases true = true → o'.consumer = .idle
  /-- The consumer is busy after it has read a frame, or has failed. -/
  begins : o'.consumer.busy = true → o.consumer.busy = true ∨ o.channelClosed = true ∨
    o.slotsClosed = true ∨ o'.underway ≠ o.underway ∧ ∃ frame lease, o.taken = some frame ∧
      o.consumer = .reading frame.packet lease
  /-- A frame that is not published stays ahead of the consumer. -/
  sent : ∀ frame, frame ∈ o.queued ∨ o.taken = some frame ∧ o.consumer.seeks = true →
    (∀ lease, o.producer ≠ .sent frame lease) ∨ o.slotsClosed = true ∨
      frame ∈ o'.queued ∨ o'.taken = some frame ∧ o'.consumer.seeks = true
  /-- The consumer has failed on a frame, or has found the channel closed and empty. -/
  through : o'.consumer.over = true → (o.consumer.over = true ∧ o'.queued = o.queued) ∨
    (o.channelClosed = true ∧ o'.queued = []) ∨ o'.underway ≠ o.underway

theorem ConsumerTurn.spares {checks : Bool} {o o' : Outline} (h : ConsumerTurn checks o o')
    (hTaken : o.consumer.packet = none → o.taken = none) : Spares o o' := by
  have hQuiet : ∀ {consumer : Consumer} {Q : Prop} (flag : Consumer → Bool), o.consumer = consumer →
      flag consumer = false → flag o.consumer = true → Q := by
    intro consumer Q flag hConsumer hNot hFlag
    rw [hConsumer, hNot] at hFlag
    cases hFlag
  have hKept : ∀ {consumer : Consumer}, o.consumer = consumer → consumer.packet = none →
      o.taken = none := fun hConsumer hNone => hTaken (hConsumer ▸ hNone)
  cases h with
  | drained hConsumer hClosed hEmpty =>
    refine ⟨rfl, fun _ => hKept hConsumer rfl, fun hShut => hShut,
      hQuiet Consumer.raises hConsumer rfl, hQuiet Consumer.busy hConsumer rfl,
      hQuiet (Consumer.releases true) hConsumer rfl, fun _ => Or.inr (Or.inl hClosed), ?_,
      fun _ => Or.inr (Or.inl ⟨hClosed, hEmpty⟩)⟩
    rintro frame (hQueued | ⟨hHand, -⟩)
    · rw [hEmpty] at hQueued
      cases hQueued
    · cases hHand.symm.trans (hKept hConsumer rfl)
  | received hConsumer hQueued =>
    refine ⟨rfl, nofun, fun hShut => hShut, hQuiet Consumer.raises hConsumer rfl,
      hQuiet Consumer.busy hConsumer rfl, hQuiet (Consumer.releases true) hConsumer rfl, nofun, ?_,
      nofun⟩
    rintro frame (hMem | ⟨hHand, -⟩)
    · rw [hQueued] at hMem
      rcases List.mem_cons.mp hMem with rfl | hRest
      · exact Or.inr (Or.inr (Or.inr ⟨rfl, rfl⟩))
      · exact Or.inr (Or.inr (Or.inl hRest))
    · cases hHand.symm.trans (hKept hConsumer rfl)
  | asked token hHand hConsumer =>
    exact ⟨rfl, nofun, fun hShut => hShut, hQuiet Consumer.raises hConsumer rfl,
      hQuiet Consumer.busy hConsumer rfl, hQuiet (Consumer.releases true) hConsumer rfl, nofun,
      fun frame hAhead => Or.inr (Or.inr (hAhead.imp_right fun hMine => ⟨hMine.1, rfl⟩)), nofun⟩
  | @granted taken lease hHand hSeeks hPast =>
    have hNot := Consumer.not_busy_of_seeks hSeeks
    refine ⟨rfl, nofun, fun hShut => hShut, hQuiet _ rfl hNot.2.1, hQuiet _ rfl hNot.1,
      hQuiet _ rfl hNot.2.2, nofun, ?_, nofun⟩
    rintro frame (hMem | ⟨hMine, -⟩)
    · exact Or.inr (Or.inr (Or.inl hMem))
    · rw [← Option.some.inj (hHand.symm.trans hMine)]
      exact Or.inl hPast
  | refused hHand hSeeks hClosed =>
    have hNot := Consumer.not_busy_of_seeks hSeeks
    refine ⟨rfl, fun _ => rfl, fun hShut => hShut, hQuiet _ rfl hNot.2.1, hQuiet _ rfl hNot.1,
      hQuiet _ rfl hNot.2.2, fun _ => Or.inr (Or.inr (Or.inl hClosed)),
      fun _ _ => Or.inr (Or.inl hClosed), fun _ => Or.inr (Or.inr fun hSame => ?_)⟩
    have hLength := congrArg List.length hSame
    simp [Outline.underway, hHand] at hLength
  | @read frame lease hHand hConsumer =>
    have hMoved : ({ o with
        consumer := .releasing lease checks, taken := none, reads := o.reads ++ [frame] } :
        Outline).underway ≠ o.underway := by
      intro hSame
      have hLength := congrArg List.length hSame
      simp [Outline.underway, hHand] at hLength
    refine ⟨rfl, fun _ => rfl, fun hShut => hShut, hQuiet Consumer.raises hConsumer rfl,
      hQuiet Consumer.busy hConsumer rfl, hQuiet (Consumer.releases true) hConsumer rfl,
      fun _ => Or.inr (Or.inr (Or.inr ⟨hMoved, frame, lease, hHand, hConsumer⟩)), ?_,
      fun _ => Or.inr (Or.inr hMoved)⟩
    rintro other (hMem | ⟨-, hSeeks⟩)
    · exact Or.inr (Or.inr (Or.inl hMem))
    · exact hQuiet Consumer.seeks hConsumer rfl hSeeks
  | @released lease checked hConsumer =>
    have hBusy : o.consumer.busy = true := by
      rw [hConsumer]
      rfl
    have hSent : ∀ frame, frame ∈ o.queued ∨ o.taken = some frame ∧ o.consumer.seeks = true →
        frame ∈ o.queued := by
      rintro frame (hMem | ⟨-, hSeeks⟩)
      · exact hMem
      · exact hQuiet Consumer.seeks hConsumer rfl hSeeks
    cases checked with
    | true =>
      exact ⟨rfl, fun _ => hKept hConsumer rfl, fun hShut => hShut,
        hQuiet Consumer.raises hConsumer rfl, fun _ => Or.inr (Or.inr (by rw [hConsumer]; rfl)),
        fun _ => rfl, nofun, fun frame hAhead => Or.inr (Or.inr (Or.inl (hSent frame hAhead))),
        nofun⟩
    | false =>
      exact ⟨rfl, fun _ => hKept hConsumer rfl, fun hShut => hShut, fun _ => Or.inr rfl,
        fun _ => Or.inr (Or.inl rfl), hQuiet (Consumer.releases true) hConsumer rfl,
        fun _ => Or.inl hBusy, fun frame hAhead => Or.inr (Or.inr (Or.inl (hSent frame hAhead))),
        fun _ => Or.inl ⟨by rw [hConsumer]; rfl, rfl⟩⟩
  | failed hConsumer =>
    refine ⟨rfl, fun _ => hKept hConsumer rfl, fun _ => rfl, fun _ => Or.inl hConsumer,
      fun _ => Or.inl hConsumer, hQuiet (Consumer.releases true) hConsumer rfl, nofun, ?_,
      fun _ => Or.inl ⟨by rw [hConsumer]; rfl, rfl⟩⟩
    rintro frame (hMem | ⟨-, hSeeks⟩)
    · exact Or.inr (Or.inr (Or.inl hMem))
    · exact hQuiet Consumer.seeks hConsumer rfl hSeeks
  | ended hConsumer =>
    refine ⟨rfl, fun _ => hKept hConsumer rfl, fun hShut => hShut,
      hQuiet Consumer.raises hConsumer rfl, hQuiet Consumer.busy hConsumer rfl,
      hQuiet (Consumer.releases true) hConsumer rfl, nofun, ?_,
      fun _ => Or.inl ⟨by rw [hConsumer]; rfl, rfl⟩⟩
    rintro frame (hMem | ⟨-, hSeeks⟩)
    · exact Or.inr (Or.inr (Or.inl hMem))
    · exact hQuiet Consumer.seeks hConsumer rfl hSeeks

-- ---------------------------------------------------------------------------
-- The invariant
-- ---------------------------------------------------------------------------

structure Accounts (b : Board) : Prop where
  taken : b.consumer.packet = none → b.taken = none
  /-- What was handed over was read, or is on its way, or is lost. -/
  accounts : ∃ lost, b.accepted = b.reads.map Frame.record ++ b.underway ++ lost ∧
    (b.underway ++ lost).length ≤ 1 ∧
    (lost ≠ [] → b.coordination.stopRequested = true ∨ b.producer.raises = true ∨
      b.consumer.raises = true)
  flight : b.coordination.stopRequested = false → (b.coordination.inFlight = true ↔ b.Active)
  acknowledged : b.acknowledges = true → b.consumer = .idle
  quiet : b.coordination.stopRequested = false → b.consumer.busy = true ∨ b.acknowledges = true →
    b.underway = [] ∧ b.producer = .idle
  raised : b.coordination.stopRequested = false → b.producer.raises = true → b.underway = []
  /-- The consumer does not have the slot of a frame that is not published. -/
  sent : b.coordination.stopRequested = false → ∀ frame lease, b.producer = .sent frame lease →
    frame ∈ b.queued ∨ b.taken = some frame ∧ b.consumer.seeks = true
  through : b.consumer.over = true → b.queued = [] ∧ (b.channelClosed = true ∨ b.underway = [])

namespace Accounts

variable {b b' : Board}

/-- There is one record on its way at most: if it is lost, nothing is left. -/
theorem underway_cases (h : Accounts b) {xs lost ys : List FrameRecord}
    (hUnderway : b.underway = xs ++ lost ++ ys) :
    (lost = [] ∧ b.underway = xs ++ ys) ∨ (lost ≠ [] ∧ xs ++ ys = [] ∧ b.underway = lost) := by
  obtain ⟨old, -, hLength, -⟩ := h.accounts
  rcases lost with - | ⟨record, rest⟩
  · exact Or.inl ⟨rfl, by rw [hUnderway, List.append_nil]⟩
  · rw [hUnderway] at hLength
    simp only [List.length_append, List.length_cons] at hLength
    have hXs : xs = [] := List.length_eq_zero_iff.mp (by omega)
    have hYs : ys = [] := List.length_eq_zero_iff.mp (by omega)
    subst hXs hYs
    exact Or.inr ⟨List.cons_ne_nil _ _, rfl, by rw [hUnderway]; simp⟩

/-- Nothing of what was handed over is forgotten when the record on its way is lost. -/
theorem lose (h : Accounts b) {underway lost : List FrameRecord}
    (hUnderway : (lost = [] ∧ b.underway = underway) ∨
      (lost ≠ [] ∧ underway = [] ∧ b.underway = lost)) :
    ∃ lost', b.accepted = b.reads.map Frame.record ++ underway ++ lost' ∧
      (underway ++ lost').length ≤ 1 ∧
      (lost' ≠ [] → lost ≠ [] ∨ b.coordination.stopRequested = true ∨ b.producer.raises = true ∨
        b.consumer.raises = true) := by
  obtain ⟨old, hAccepted, hLength, hOld⟩ := h.accounts
  rcases hUnderway with ⟨-, rfl⟩ | ⟨hSome, rfl, hAll⟩
  · exact ⟨old, hAccepted, hLength, fun hNot => Or.inr (hOld hNot)⟩
  · rw [hAll] at hAccepted hLength
    have hPos := List.length_pos_iff.mpr hSome
    have hNone : old = [] := by
      rw [List.length_append] at hLength
      exact List.length_eq_zero_iff.mp (by omega)
    rw [hNone, List.append_nil] at hAccepted hLength
    exact ⟨lost, by rw [List.append_nil, hAccepted], hLength, fun _ => Or.inl hSome⟩

-- ---------------------------------------------------------------------------
-- The producer
-- ---------------------------------------------------------------------------

theorem producerTurn (h : Accounts b) (hFlags : Flags b) {o' : Outline} (error : Option String)
    (hRecorded : b.producer = .failing → b.producerError = none)
    (hTurn : ProducerTurn b.toOutline o') :
    Accounts { b with toOutline := o', producerError := error } := by
  obtain ⟨lost, hLost, hRaises, hWhy⟩ := hTurn.underway
  have hSpares := hTurn.spares
  have hCases : (lost = [] ∧ b.underway = o'.underway ++ (b.record.toList ++
      b.coordination.pending.toList)) ∨ (lost ≠ [] ∧ o'.underway ++ (b.record.toList ++
      b.coordination.pending.toList) = [] ∧ b.underway = lost) := by
    refine h.underway_cases ?_
    unfold Board.underway
    rw [hLost]
    simp only [List.append_assoc]
  have hNext : ({ b with toOutline := o', producerError := error } : Board).underway =
      o'.underway ++ (b.record.toList ++ b.coordination.pending.toList) := List.append_assoc _ _ _
  have hEmpty : b.underway = [] →
      ({ b with toOutline := o', producerError := error } : Board).underway = [] := by
    intro hNone
    rw [hNext]
    rcases hCases with ⟨-, hSame⟩ | ⟨-, hLeft, -⟩
    · exact hSame.symm.trans hNone
    · exact hLeft
  obtain ⟨lost', hAccepted, hLength, hWhere⟩ := h.lose hCases
  refine ⟨?_, ⟨lost', ?_, ?_, ?_⟩, ?_, ?_, ?_, ?_, ?_, ?_⟩
  · intro hPacket
    exact hSpares.taken.trans (h.taken (hSpares.consumer ▸ hPacket))
  · rw [hNext, show ({ b with toOutline := o', producerError := error } : Board).reads =
      b.reads from hSpares.reads]
    exact hAccepted
  · rw [hNext]
    exact hLength
  · intro hNot
    rcases hWhere hNot with hSome | hStop | hRaised | hConsumer
    · exact Or.inr (Or.inl (hRaises hSome))
    · exact Or.inl hStop
    · rcases hSpares.raises hRaised with hFailing | hStill
      · exact Or.inl (hFlags.failed (hFlags.recorded_of_failing hFailing (hRecorded hFailing)))
      · exact Or.inr (Or.inl hStill)
    · exact Or.inr (Or.inr (hSpares.consumer ▸ hConsumer))
  · intro hGoes
    have hLive : (b.underway ≠ [] ∨ b.producer.raises = true) ↔
        (o'.underway ++ (b.record.toList ++ b.coordination.pending.toList) ≠ [] ∨
          o'.producer.raises = true) := by
      constructor
      · rintro (hSome | hRaised)
        · rcases hCases with ⟨-, hSame⟩ | ⟨hLostSome, -⟩
          · exact Or.inl (hSame ▸ hSome)
          · exact Or.inr (hRaises hLostSome)
        · rcases hSpares.raises hRaised with hFailing | hStill
          · have hError := hFlags.recorded_of_failing hFailing (hRecorded hFailing)
            cases hGoes.symm.trans (hFlags.failed hError)
          · exact Or.inr hStill
      · rintro (hSome | hRaised)
        · rcases hCases with ⟨-, hSame⟩ | ⟨-, hLeft, -⟩
          · exact Or.inl (hSame ▸ hSome)
          · exact absurd hLeft hSome
        · rcases hWhy hRaised with hLostSome | hWas | hClosed
          · rcases hCases with ⟨hNone, -⟩ | ⟨-, -, hAll⟩
            · exact absurd hNone hLostSome
            · exact Or.inl (hAll ▸ hLostSome)
          · exact Or.inr hWas
          · cases (hFlags.goes_on hGoes).2.1.symm.trans hClosed
    refine (h.flight hGoes).trans ?_
    unfold Board.Active
    rw [hNext, show ({ b with toOutline := o', producerError := error } : Board).consumer =
      b.consumer from hSpares.consumer, ← or_assoc, hLive, or_assoc]
  · intro hAck
    exact hSpares.consumer.trans (h.acknowledged hAck)
  · intro hGoes hBusy
    exact absurd (h.quiet hGoes (hSpares.consumer ▸ hBusy)).2 hSpares.idle
  · intro hGoes hRaised
    rcases hWhy hRaised with hSome | hWas | hClosed
    · rw [hNext]
      rcases hCases with ⟨hNone, -⟩ | ⟨-, hLeft, -⟩
      · exact absurd hNone hSome
      · exact hLeft
    · exact hEmpty (h.raised hGoes hWas)
    · cases (hFlags.goes_on hGoes).2.1.symm.trans hClosed
  · intro hGoes frame lease hSent
    exact Or.inl (hSpares.sent frame lease hSent)
  · intro hOver
    obtain ⟨hQueued, hClosed⟩ := h.through (hSpares.consumer ▸ hOver)
    refine ⟨?_, hClosed.imp hSpares.closed hEmpty⟩
    rcases hSpares.queued with hSame | ⟨hOpen, hSome⟩
    · exact hSame.trans hQueued
    · rcases hClosed with hShut | hNone
      · cases hOpen.symm.trans hShut
      · unfold Board.underway at hNone
        simp only [List.append_eq_nil_iff] at hNone
        exact absurd hNone.1.1 hSome

-- ---------------------------------------------------------------------------
-- The consumer
-- ---------------------------------------------------------------------------

/-- While the consumer reads a frame the producer has nothing to do. -/
theorem idle_of_reading (h : Accounts b) (hFlags : Flags b)
    (hGoes : b.coordination.stopRequested = false) {frame : Frame} {lease : FrameLease}
    (hTaken : b.taken = some frame) (hReading : b.consumer = .reading frame.packet lease) :
    b.producer = .idle := by
  have hUnderway : b.underway = [] ++ [frame.record] ++
      ((b.queued ++ b.producer.unsent).map Frame.record ++ b.producer.record.toList ++
        b.record.toList ++ b.coordination.pending.toList) := by
    simp [Board.underway, Outline.underway, hTaken]
  rcases h.underway_cases hUnderway with ⟨hNo, -⟩ | ⟨-, hRest, hAll⟩
  · cases hNo
  · simp only [List.nil_append, List.append_eq_nil_iff, List.map_eq_nil_iff,
      Option.toList_eq_nil_iff] at hRest
    obtain ⟨⟨⟨⟨hQueued, hUnsent⟩, hRecord⟩, -⟩, -⟩ := hRest
    have hOver := (hFlags.goes_on hGoes).2.2
    cases hProducer : b.producer with
    | idle => rfl
    | acquiring record | writing record lease | sizing record lease =>
      rw [hProducer] at hRecord
      cases hRecord
    | sending frame lease =>
      rw [hProducer] at hUnsent
      cases hUnsent
    | sent other lease =>
      rcases h.sent hGoes other lease hProducer with hMem | ⟨-, hSeeks⟩
      · rw [hQueued] at hMem
        cases hMem
      · rw [hReading] at hSeeks
        cases hSeeks
    | unwinding lease | failing =>
      have hNone := h.raised hGoes (by rw [hProducer]; rfl)
      rw [hAll] at hNone
      cases hNone
    | failed | closing | stopped =>
      rw [hProducer] at hOver
      cases hOver

theorem consumerTurn (h : Accounts b) (hFlags : Flags b) {o' : Outline} {checks : Bool}
    (error : Option String) (checked : List Frame) (hNone : b.acknowledges = false)
    (hRecorded : b.consumer = .failing → b.consumerError = none)
    (hTurn : ConsumerTurn checks b.toOutline o') :
    Accounts { b with
      toOutline := o', consumerError := error, acknowledges := b.consumer.releases true
      checked } := by
  obtain ⟨read, lost, hUnderway, hReads, hBusyNow, hRaises⟩ := hTurn.underway h.taken
  have hSpares := hTurn.spares h.taken
  have hFailing : b.consumer = .failing → b.coordination.stopRequested = true := by
    intro hFailing
    have hRaised := hFlags.consumerRaises (by rw [hFailing]; rfl)
    rw [hRecorded hFailing] at hRaised
    exact hFlags.failed (hRaised.resolve_left nofun)
  generalize hNext : ({ b with
    toOutline := o', consumerError := error, acknowledges := b.consumer.releases true, checked } :
    Board) = next
  have hSplit : b.underway = [] ++ (read ++ lost) ++ next.underway := by
    rw [← hNext]
    unfold Board.underway
    rw [hUnderway]
    simp only [List.nil_append, List.append_assoc]
  have hCases := h.underway_cases hSplit
  rw [List.nil_append] at hCases
  have hEmpty : b.underway = [] → next.underway = [] := by
    intro hNil
    rcases hCases with ⟨-, hSame⟩ | ⟨-, hLeft, -⟩
    · exact hSame.symm.trans hNil
    · exact hLeft
  have hMoves : o'.underway ≠ b.toOutline.underway → next.underway = [] := by
    intro hMoved
    rcases hCases with ⟨hNil, -⟩ | ⟨-, hLeft, -⟩
    · refine absurd ?_ hMoved
      rw [hUnderway, hNil, List.nil_append]
    · exact hLeft
  obtain ⟨old, hAccepted, hLength, hOld⟩ := h.accounts
  have hBusy : b.coordination.stopRequested = false → b.consumer.busy = true →
      o'.consumer.busy = true ∨ b.consumer.releases true = true := by
    intro hGoes hWas
    rcases hSpares.busy hWas with hStuck | hStill
    · cases hGoes.symm.trans (hFailing hStuck)
    · exact hStill
  have hBegins : b.coordination.stopRequested = false → o'.consumer.busy = true →
      b.consumer.busy = true ∨ o'.underway ≠ b.toOutline.underway ∧ ∃ frame lease,
        b.taken = some frame ∧ b.consumer = .reading frame.packet lease := by
    intro hGoes hNow
    obtain ⟨hChannel, hSlots, -⟩ := hFlags.goes_on hGoes
    rcases hSpares.begins hNow with hWas | hClosed | hClosed | hReading
    · exact Or.inl hWas
    · cases hChannel.symm.trans hClosed
    · cases hSlots.symm.trans hClosed
    · exact Or.inr hReading
  have hReleases : b.consumer.releases true = true → b.consumer.busy = true := by
    intro hGives
    cases hConsumer : b.consumer with
    | releasing | failing => rfl
    | idle | received | waiting | reading | failed | stopped =>
      rw [hConsumer] at hGives
      cases hGives
  subst hNext
  refine ⟨hSpares.taken, ?_, ?_, hSpares.released, ?_, ?_, ?_, ?_⟩
  · rcases hCases with ⟨hNil, hSame⟩ | ⟨hSomething, hLeft, hAll⟩
    · obtain ⟨rfl, rfl⟩ := List.append_eq_nil_iff.mp hNil
      rw [List.append_nil] at hReads
      rw [hSame] at hAccepted hLength
      refine ⟨old, ?_, hLength, fun hSome => ?_⟩
      · rw [hReads]
        exact hAccepted
      · rcases hOld hSome with hStop | hProducer | hRaised
        · exact Or.inl hStop
        · exact Or.inr (Or.inl (hSpares.producer ▸ hProducer))
        · rcases hSpares.raises hRaised with hStuck | hStill
          · exact Or.inl (hFailing hStuck)
          · exact Or.inr (Or.inr hStill)
    · rw [hAll] at hAccepted hLength
      have hPos := List.length_pos_iff.mpr hSomething
      have hOldNil : old = [] := by
        rw [List.length_append] at hLength
        exact List.length_eq_zero_iff.mp (by omega)
      rw [hOldNil, List.append_nil] at hAccepted hLength
      refine ⟨lost, ?_, ?_, fun hSome => Or.inr (Or.inr (hRaises hSome))⟩
      · rw [hReads, hLeft, List.append_nil, List.append_assoc]
        exact hAccepted
      · rw [hLeft, List.nil_append]
        rw [List.length_append] at hLength
        omega
  · intro hGoes
    refine (h.flight hGoes).trans ⟨?_, ?_⟩
    · rintro (hSome | hRaised | hWas | hAck)
      · rcases hCases with ⟨-, hSame⟩ | ⟨hSomething, -⟩
        · exact Or.inl (hSame ▸ hSome)
        · exact Or.inr (Or.inr (Or.inl (hBusyNow hSomething)))
      · exact Or.inr (Or.inl (hSpares.producer ▸ hRaised))
      · exact Or.inr (Or.inr (hBusy hGoes hWas))
      · cases hNone.symm.trans hAck
    · rintro (hSome | hRaised | hNow | hGives)
      · refine Or.inl fun hNil => hSome (hEmpty hNil)
      · exact Or.inr (Or.inl (hSpares.producer ▸ hRaised))
      · rcases hBegins hGoes hNow with hWas | ⟨-, frame, lease, hTaken, -⟩
        · exact Or.inr (Or.inr (Or.inl hWas))
        · refine Or.inl ?_
          simp [Board.underway, Outline.underway, hTaken]
      · exact Or.inr (Or.inr (Or.inl (hReleases hGives)))
  · intro hGoes hNow
    have hWas : b.consumer.busy = true ∨ o'.underway ≠ b.toOutline.underway ∧ ∃ frame lease,
        b.taken = some frame ∧ b.consumer = .reading frame.packet lease := by
      rcases hNow with hNow | hAck
      · exact hBegins hGoes hNow
      · exact Or.inl (hReleases hAck)
    rcases hWas with hWas | ⟨hMoved, frame, lease, hTaken, hReading⟩
    · obtain ⟨hNil, hIdle⟩ := h.quiet hGoes (Or.inl hWas)
      exact ⟨hEmpty hNil, hSpares.producer.trans hIdle⟩
    · have hIdle := h.idle_of_reading hFlags hGoes hTaken hReading
      exact ⟨hMoves hMoved, hSpares.producer.trans hIdle⟩
  · intro hGoes hRaised
    exact hEmpty (h.raised hGoes (hSpares.producer ▸ hRaised))
  · intro hGoes frame lease hSent
    have hProducer : b.producer = .sent frame lease := hSpares.producer.symm.trans hSent
    rcases hSpares.sent frame (h.sent hGoes frame lease hProducer) with hNot | hClosed | hAhead
    · exact absurd hProducer (hNot lease)
    · cases (hFlags.goes_on hGoes).2.1.symm.trans hClosed
    · exact hAhead
  · intro hOver
    rcases hSpares.through hOver with ⟨hWas, hSame⟩ | ⟨hClosed, hNil⟩ | hMoved
    · obtain ⟨hQueued, hWhy⟩ := h.through hWas
      exact ⟨hSame.trans hQueued, hWhy.imp hSpares.closed hEmpty⟩
    · exact ⟨hNil, Or.inl (hSpares.closed hClosed)⟩
    · have hNil := hMoves hMoved
      refine ⟨?_, Or.inr hNil⟩
      unfold Board.underway Outline.underway at hNil
      simp only [List.map_append, List.append_eq_nil_iff, List.map_eq_nil_iff] at hNil
      exact hNil.1.1.1.1.2

-- ---------------------------------------------------------------------------
-- Every step
-- ---------------------------------------------------------------------------

/-- A record that the producer has not taken is lost when the exchange is halted. -/
theorem halt (h : Accounts b) (error : Option String) (owner : Owner)
    (producerError consumerError : Option String) :
    Accounts { b with
      coordination := b.coordination.halt error, owner, producerError, consumerError } := by
  obtain ⟨lost, hAccepted, hLength, -⟩ := h.accounts
  unfold Board.underway at hAccepted hLength
  refine { h with
    accounts := ⟨b.coordination.pending.toList ++ lost, ?_, ?_, fun _ => Or.inl rfl⟩
    flight := nofun
    quiet := nofun
    raised := nofun
    sent := nofun
    through := fun hOver => (h.through hOver).imp_right fun hWhy => hWhy.imp_right fun hNil => ?_ }
  · simpa [Board.underway, FrameCoordination.halt] using hAccepted
  · simp only [List.length_append] at hLength
    simp only [Board.underway, FrameCoordination.halt, List.length_append, Option.toList_none,
      List.length_nil]
    omega
  · unfold Board.underway at hNil ⊢
    rw [List.append_eq_nil_iff] at hNil
    rw [hNil.1]
    rfl

/-- Between two records the exchange is at rest, and nothing is lost. -/
theorem rest (h : Accounts b) (hFlags : Flags b) (hGoes : b.coordination.stopRequested = false)
    (hFlight : b.coordination.inFlight = false) :
    b.underway = [] ∧ b.producer.raises = false ∧ b.consumer.busy = false ∧
      b.acknowledges = false ∧ b.consumer.over = false ∧
      b.accepted = b.reads.map Frame.record := by
  have hRest : ¬b.Active := fun hActive => by
    cases hFlight.symm.trans ((h.flight hGoes).mpr hActive)
  unfold Board.Active at hRest
  simp only [not_or, ne_eq, Decidable.not_not, Bool.not_eq_true] at hRest
  obtain ⟨hNil, hProducer, hBusy, hAck⟩ := hRest
  have hConsumer : b.consumer.raises = false := by
    by_contra hRaises
    cases hBusy.symm.trans (Consumer.busy_of_raises (Bool.eq_true_of_not_eq_false hRaises))
  refine ⟨hNil, hProducer, hBusy, hAck, ?_, ?_⟩
  · have hStop : ∀ {P : Prop}, b.coordination.stopRequested = true → P := fun hStop => by
      cases hGoes.symm.trans hStop
    cases hPlace : b.consumer with
    | idle | received | waiting | reading => rfl
    | releasing lease checks =>
      rw [hPlace] at hBusy
      cases hBusy
    | failing =>
      rw [hPlace] at hBusy
      cases hBusy
    | failed => exact hStop (hFlags.failed (hFlags.consumerFailed hPlace))
    | stopped => exact hStop (hFlags.consumerOver hPlace)
  · obtain ⟨lost, hAccepted, -, hLost⟩ := h.accounts
    have hNone : lost = [] := by
      by_contra hSome
      rcases hLost hSome with hStop | hRaises | hRaises
      · cases hGoes.symm.trans hStop
      · cases hProducer.symm.trans hRaises
      · cases hConsumer.symm.trans hRaises
    rw [hAccepted, hNil, hNone, List.append_nil, List.append_nil]

/-- The producer asks for a slot. -/
theorem ask (h : Accounts b) {record : FrameRecord} (hIdle : b.producer = .idle)
    (hRecord : b.record = some record) :
    Accounts { b with producer := .acquiring record, record := none } := by
  have hSame : ({ b with producer := .acquiring record, record := none } : Board).underway =
      b.underway := by
    simp [Board.underway, Outline.underway, hIdle, hRecord, Producer.unsent, Producer.record]
  have hSome : b.underway ≠ [] := by
    simp [Board.underway, hRecord]
  obtain ⟨lost, hAccepted, hLength, hLost⟩ := h.accounts
  refine { h with
    accounts := ⟨lost, ?_, ?_, fun hNot => ?_⟩
    flight := fun hGoes => (h.flight hGoes).trans ?_
    quiet := fun hGoes hBusy => absurd (h.quiet hGoes hBusy).1 hSome
    raised := fun _ => nofun
    sent := fun _ _ _ => nofun
    through := fun hOver => hSame ▸ h.through hOver }
  · rw [hSame]
    exact hAccepted
  · rw [hSame]
    exact hLength
  · refine (hLost hNot).imp_right fun hRaises => hRaises.imp_left fun hProducer => ?_
    rw [hIdle] at hProducer
    cases hProducer
  · exact ⟨fun _ => Or.inl (hSame ▸ hSome), fun _ => Or.inl hSome⟩

theorem step (h : Accounts b) (hFlags : Flags b) (hStep : BoardStep b b') : Accounts b' := by
  cases hStep with
  | refused | published | rethrown | gaveUp | stoppingSlots | joined => exact { h with }
  | abandoned | stopping =>
    exact { h with through := fun hOver => ⟨(h.through hOver).1, Or.inl rfl⟩ }
  | timedOut error | stopRequested | producerFailed | consumerFailed => exact h.halt _ _ _ _
  | accepted tick worldHash hOwner hOpen hError hPending hFlight =>
    have hGoes := hFlags.not_halted (by rw [hOwner]; rfl) hOpen hError
    obtain ⟨hNil, hProducer, hBusy, hAck, hOver, hAccepted⟩ := h.rest hFlags hGoes hFlight
    have hNext : b.toOutline.underway ++ b.record.toList ++
        (some (FrameRecord.ofWords tick worldHash)).toList = [.ofWords tick worldHash] := by
      unfold Board.underway at hNil
      rw [List.append_eq_nil_iff] at hNil
      rw [hNil.1]
      rfl
    refine { h with
      accounts := ⟨[], ?_, ?_, fun hNot => absurd rfl hNot⟩
      flight := fun _ => ⟨fun _ => Or.inl ?_, fun _ => rfl⟩
      quiet := fun _ hNow => ?_
      raised := fun _ hRaises => nomatch hProducer.symm.trans hRaises
      through := fun hNow => nomatch hOver.symm.trans hNow }
    · show b.accepted ++ _ = b.reads.map Frame.record ++ _ ++ []
      rw [List.append_nil, hAccepted]
      exact congrArg _ hNext.symm
    · rw [List.append_nil]
      exact (congrArg List.length hNext).le
    · exact hNext ▸ List.cons_ne_nil _ _
    · rcases hNow with hNow | hNow
      · cases hBusy.symm.trans hNow
      · cases hAck.symm.trans hNow
  | @took record hIdle hNone hPending =>
    have hSame : ({ b with
        record := some record, coordination := { b.coordination with pending := none } } :
        Board).underway = b.underway := by
      simp [Board.underway, hNone, hPending]
    obtain ⟨lost, hAccepted, hLength, hLost⟩ := h.accounts
    exact { h with
      accounts := ⟨lost, hSame ▸ hAccepted, hSame ▸ hLength, hLost⟩
      flight := fun hGoes => (h.flight hGoes).trans (by unfold Board.Active; rw [hSame])
      quiet := fun hGoes hBusy => hSame ▸ h.quiet hGoes hBusy
      raised := fun hGoes hRaises => hSame ▸ h.raised hGoes hRaises
      through := fun hOver => hSame ▸ h.through hOver }
  | @gave record o' fault hIdle hRecord hTurn =>
    have hAsk := h.ask hIdle hRecord
    have hFlags' := hFlags.produceTurn fault (.blocked : ProduceTurn record b.toOutline _)
    cases hTurn with
    | blocked => exact { hAsk with }
    | acquired hTurn =>
      refine producerTurn hAsk hFlags' _ nofun (.acquired rfl ?_)
      cases hTurn with
      | refused hClosed => exact .refused hClosed
      | threw hExhausted => exact .threw hExhausted
      | claimed lease hOpen => exact .claimed lease hOpen
  | left hIdle hNone hPending hStop =>
    have hSame : ({ b with producer := .closing } : Board).underway = b.underway := by
      simp [Board.underway, Outline.underway, hIdle, Producer.unsent, Producer.record]
    have hNever : ∀ {P : Prop}, b.coordination.stopRequested = false → P := fun hGoes => by
      cases hGoes.symm.trans hStop
    obtain ⟨lost, hAccepted, hLength, -⟩ := h.accounts
    exact { h with
      accounts := ⟨lost, hSame ▸ hAccepted, hSame ▸ hLength, fun _ => Or.inl hStop⟩
      flight := fun hGoes => hNever hGoes
      quiet := fun hGoes => hNever hGoes
      raised := fun hGoes => hNever hGoes
      sent := fun hGoes => hNever hGoes
      through := fun hOver => hSame ▸ h.through hOver }
  | produced fault hRecorded hTurn => exact h.producerTurn hFlags _ hRecorded hTurn
  | acknowledged hReleased =>
    have hIdle := h.acknowledged hReleased
    refine { h with
      flight := fun hGoes => ⟨nofun, fun hActive => ?_⟩
      acknowledged := nofun
      quiet := fun hGoes _ => h.quiet hGoes (Or.inr hReleased) }
    obtain ⟨hNil, hProducer⟩ := h.quiet hGoes (Or.inr hReleased)
    rcases hActive with hSome | hRaises | hBusy | hAck
    · exact absurd hNil hSome
    · rw [show ({ b with
          coordination := { b.coordination with inFlight := false }
          acknowledges := false
          expectedTick := b.expectedTick + 1 } : Board).producer = .idle from hProducer] at hRaises
      cases hRaises
    · rw [show ({ b with
          coordination := { b.coordination with inFlight := false }
          acknowledges := false
          expectedTick := b.expectedTick + 1 } : Board).consumer = .idle from hIdle] at hBusy
      cases hBusy
    · cases hAck
  | consumed hNone hRecorded hJudges hTurn => exact h.consumerTurn hFlags _ _ hNone hRecorded hTurn

end Accounts

end Ithax.Threading
