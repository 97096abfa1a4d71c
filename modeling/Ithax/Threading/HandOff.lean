import Ithax.Threading.FrameExchange
import Ithax.Threading.Token

/-!
# The pool of the exchange

The exchange uses the pool through its leases only, so the leases, the slots and the
tokens are as for any two threads on a pool.

## Results

* `FrameExchange.step_view`  — a step of the exchange is a run of its pool.
-/

namespace Ithax.Threading

open Ithax.Lib

/-- The lease in the hands of the producer. -/
def Producer.lease : Producer → Option FrameLease
  | writing _ lease | sizing _ lease | sending _ lease | sent _ lease | unwinding lease => some lease
  | _ => none

/-- The lease in the hands of the consumer. -/
def Consumer.lease : Consumer → Option FrameLease
  | reading _ lease | releasing lease _ => some lease
  | _ => none

/-- The producer is inside `AcquireWrite`. -/
def Producer.waits : Producer → Bool
  | acquiring _ => true
  | _ => false

/-- The token that the consumer waits for inside `AcquireRead`. -/
def Consumer.waitsFor : Consumer → Option FrameSlotToken
  | waiting _ token => some token
  | _ => none

/-- The leases that the two threads hold. -/
def leasesOf (producer : Producer) (consumer : Consumer) : Role → List FrameLease
  | .producer => producer.lease.toList
  | .consumer => consumer.lease.toList

/-- Only the leases of the two threads matter. -/
theorem leasesOf_congr {producer producer' : Producer} {consumer consumer' : Consumer}
    (hProducer : producer'.lease = producer.lease) (hConsumer : consumer'.lease = consumer.lease) :
    leasesOf producer' consumer' = leasesOf producer consumer := by
  funext role
  cases role with
  | producer => rw [leasesOf, leasesOf, hProducer]
  | consumer => rw [leasesOf, leasesOf, hConsumer]

/-- The producer exchanges its lease. -/
theorem update_producer {producer producer' : Producer} {consumer : Consumer}
    {list : List FrameLease} (hList : list = producer'.lease.toList) :
    Function.update (leasesOf producer consumer) .producer list = leasesOf producer' consumer := by
  funext role
  cases role with
  | producer => rw [Function.update_self, hList, leasesOf]
  | consumer => rw [Function.update_of_ne (by decide), leasesOf, leasesOf]

/-- The consumer exchanges its lease. -/
theorem update_consumer {producer : Producer} {consumer consumer' : Consumer}
    {list : List FrameLease} (hList : list = consumer'.lease.toList) :
    Function.update (leasesOf producer consumer) .consumer list = leasesOf producer consumer' := by
  funext role
  cases role with
  | producer => rw [Function.update_of_ne (by decide), leasesOf, leasesOf]
  | consumer => rw [Function.update_self, hList, leasesOf]

namespace FrameExchange

variable {x x' : FrameExchange}

/-- The pool of the exchange with the leases that the two threads hold. -/
def view (x : FrameExchange) : System where
  pool := x.slots
  threads := x.threads
  leases := leasesOf x.producer x.consumer
  writeWaits := x.producer.waits
  readWaits := x.consumer.waitsFor
  terminated := x.terminated
  history := x.history

-- ---------------------------------------------------------------------------
-- The pool of the exchange
-- ---------------------------------------------------------------------------

/-- The producer's call in the exchange and in the pool. -/
theorem view_acquiredWrite (hLease : x.producer.lease = none) (record : FrameRecord)
    (r : FrameSlotPool × Outcome (Option FrameLease)) (hRunning : r.2 ≠ .terminated) :
    x.view.acquiredWrite r = (x.acquiredWrite record r).view := by
  obtain ⟨slots, outcome⟩ := r
  have hSame : ∀ producer : Producer, producer.lease = none →
      leasesOf x.producer x.consumer = leasesOf producer x.consumer :=
    fun producer hProducer => leasesOf_congr (hLease.trans hProducer.symm) rfl
  cases outcome with
  | returned lease =>
    cases lease with
    | none =>
      simp only [System.acquiredWrite, acquiredWrite, view, System.mk.injEq, and_true, true_and]
      exact ⟨hSame .failing rfl, rfl⟩
    | some lease =>
      simp only [System.acquiredWrite, acquiredWrite, view, System.setLeases, System.mk.injEq,
        and_true, true_and]
      refine ⟨update_producer ?_, rfl⟩
      rw [leasesOf, hLease]
      rfl
  | threw e =>
    simp only [System.acquiredWrite, acquiredWrite, view, System.mk.injEq, and_true, true_and]
    exact ⟨hSame .failing rfl, rfl⟩
  | blocked =>
    simp only [System.acquiredWrite, acquiredWrite, view, System.mk.injEq, and_true, true_and]
    exact ⟨hSame (.acquiring record) rfl, rfl⟩
  | terminated => exact absurd rfl hRunning

/-- The consumer's call in the exchange and in the pool. -/
theorem view_acquiredRead (hLease : x.consumer.lease = none) (packet : FramePacket)
    (token : FrameSlotToken) (r : FrameSlotPool × Outcome (Option FrameLease))
    (hRunning : r.2 ≠ .terminated) :
    x.view.acquiredRead token r = (x.acquiredRead packet token r).view := by
  obtain ⟨slots, outcome⟩ := r
  have hSame : ∀ consumer : Consumer, consumer.lease = none →
      leasesOf x.producer x.consumer = leasesOf x.producer consumer :=
    fun consumer hConsumer => leasesOf_congr rfl (hLease.trans hConsumer.symm)
  cases outcome with
  | returned lease =>
    cases lease with
    | none =>
      simp only [System.acquiredRead, acquiredRead, done, view, System.mk.injEq, and_true, true_and]
      exact ⟨hSame .failing rfl, rfl⟩
    | some lease =>
      simp only [System.acquiredRead, acquiredRead, view, System.setLeases, System.mk.injEq,
        and_true, true_and]
      refine ⟨update_consumer ?_, rfl⟩
      rw [leasesOf, hLease]
      rfl
  | threw e =>
    simp only [System.acquiredRead, acquiredRead, done, view, System.mk.injEq, and_true, true_and]
    exact ⟨hSame .failing rfl, rfl⟩
  | blocked =>
    simp only [System.acquiredRead, acquiredRead, view, System.mk.injEq, and_true, true_and]
    exact ⟨hSame (.waiting packet token) rfl, rfl⟩
  | terminated => exact absurd rfl hRunning

/-- A thread that does not wait may use its lease. -/
theorem step_lease {s : System} {role : Role} (hRunning : s.terminated = false)
    (hWaits : s.waits role = false) (op : LeaseOp) :
    s.step (.lease role op) = s.leaseStep role op := by
  unfold System.step
  rw [if_neg (by rw [hRunning]; decide)]
  simp only [hWaits, Bool.false_eq_true, if_false]

/-- Some steps of the pool take the view of one exchange to that of another. -/
def Leads (s s' : System) : Prop := ∃ actions, runEvents System.step s actions = some s'

/-- No step at all. -/
theorem leads_same {s s' : System} (h : s = s') : Leads s s' := by
  subst h
  exact ⟨[], runEvents_nil _⟩

/-- One step. -/
theorem leads_step {s s' : System} (a : Action) (h : s.step a = some s') : Leads s s' :=
  ⟨[a], runEvents_cons_eq_some.mpr ⟨s', h, runEvents_nil _⟩⟩

/-- One after another. -/
theorem leads_trans {s s' s'' : System} (h : Leads s s') (h' : Leads s' s'') : Leads s s'' := by
  obtain ⟨actions, hRun⟩ := h
  obtain ⟨actions', hRun'⟩ := h'
  exact ⟨actions ++ actions', runEvents_append_eq_some.mpr ⟨s', hRun, hRun'⟩⟩

/-- A producer that holds a lease does not wait for one. -/
theorem view_of_lease {old : Producer} {lease : FrameLease} (hOld : x.producer = old)
    (h : old.lease = some lease) :
    x.view.leases .producer = [lease] ∧ x.view.writeWaits = false := by
  rw [← hOld] at h
  constructor
  · show leasesOf x.producer x.consumer .producer = [lease]
    rw [leasesOf, h]
    rfl
  · show x.producer.waits = false
    cases hProducer : x.producer <;> rw [hProducer] at h <;> first | rfl | exact nomatch h

/-- The producer goes on with the same lease. -/
theorem view_producer (slots : FrameSlotPool) {channel : FramePacketChannel}
    {old producer : Producer} (hOld : x.producer = old) {produced queued : List Frame}
    (hLease : producer.lease = old.lease) (hWaits : producer.waits = old.waits) :
    ({ x with slots, channel, producer, produced, queued } : FrameExchange).view =
      { x.view with pool := slots } := by
  subst hOld
  simp only [view, System.mk.injEq, and_true, true_and]
  exact ⟨leasesOf_congr hLease rfl, hWaits⟩

/-- The consumer goes on with the same lease. -/
theorem view_consumer (slots : FrameSlotPool) {channel : FramePacketChannel}
    {old consumer : Consumer} (hOld : x.consumer = old) {queued consumed reads : List Frame}
    {taken : Option Frame} (hLease : consumer.lease = old.lease)
    (hWaits : consumer.waitsFor = old.waitsFor) :
    ({ x with slots, channel, consumer, queued, consumed, reads, taken } : FrameExchange).view =
      { x.view with pool := slots } := by
  subst hOld
  simp only [view, System.mk.injEq, and_true, true_and]
  exact ⟨leasesOf_congr rfl hLease, hWaits⟩

/-- The producer uses its lease on the pool. -/
theorem view_useWrite {lease : FrameLease} {slots : FrameSlotPool}
    {use : FrameSlotToken → Except FrameSlotError FrameSlotPool}
    (hLease : x.view.leases .producer = [lease])
    (hOk : lease.withToken "write lease is not active" use = .ok slots) :
    x.view.useWrite 0 use = some { x.view with pool := slots } := by
  unfold System.useWrite
  rw [hLease]
  simp only [List.getElem?_cons_zero, Option.bind_eq_bind, Option.bind_some, hOk]

section Lead

variable (h : x.view.Sound)
include h

/-- After `AcquireWrite` the pool has made a step. -/
theorem leads_acquiredWrite (hLease : x.producer.lease = none) (record : FrameRecord)
    {r : FrameSlotPool × Outcome (Option FrameLease)} (a : Action)
    (hStep : x.view.step a = some (x.view.acquiredWrite r)) :
    Leads x.view (x.acquiredWrite record r).view := by
  have hRunning : r.2 ≠ .terminated := by
    intro hEnd
    have hSound := (h.step hStep).running
    obtain ⟨slots, outcome⟩ := r
    subst hEnd
    exact nomatch hSound
  rw [← view_acquiredWrite hLease record r hRunning]
  exact leads_step a hStep

/-- After `AcquireRead` it has too. -/
theorem leads_acquiredRead (hLease : x.consumer.lease = none) (packet : FramePacket)
    {token : FrameSlotToken} {r : FrameSlotPool × Outcome (Option FrameLease)} (a : Action)
    (hStep : x.view.step a = some (x.view.acquiredRead token r)) :
    Leads x.view (x.acquiredRead packet token r).view := by
  have hRunning : r.2 ≠ .terminated := by
    intro hEnd
    have hSound := (h.step hStep).running
    obtain ⟨slots, outcome⟩ := r
    subst hEnd
    exact nomatch hSound
  rw [← view_acquiredRead hLease packet token r hRunning]
  exact leads_step a hStep

/-- A lease that goes out of scope is given back. -/
theorem leads_giveBack (role : Role) {lease : FrameLease} (hWaits : x.view.waits role = false)
    (hLease : x.view.leases role = [lease]) :
    ∃ slots l, lease.giveBack x.slots (x.slots.back (x.threads role) role) = some (slots, l) ∧
      Leads x.view { x.view.setLeases role [] with pool := slots } := by
  have hAt : (x.view.leases role)[0]? = some lease := by
    rw [hLease]
    rfl
  obtain ⟨-, -, -, hBack, -⟩ := h.giveBack hAt
  rcases hGive : lease.giveBack x.slots (x.slots.back (x.threads role) role) with - | ⟨slots, l⟩
  · have hEnd := hBack.running
    unfold System.giveBack at hEnd
    rw [show lease.giveBack x.view.pool (x.view.pool.back (x.view.threads role) role) = none from
      hGive] at hEnd
    exact nomatch hEnd
  · refine ⟨slots, l, rfl, leads_step (.lease role (.destroy 0)) ?_⟩
    have hGiven : x.view.giveBack role 0 lease =
        { x.view.setLeases role [l] with pool := slots } := by
      unfold System.giveBack
      rw [show lease.giveBack x.view.pool (x.view.pool.back (x.view.threads role) role) =
        some (slots, l) from hGive, hLease]
      rfl
    have hRunning : x.view.terminated = false := h.running
    rw [step_lease hRunning hWaits, System.leaseStep, hAt]
    show (let s := x.view.giveBack role 0 lease; if s.terminated then some s else
      some (s.setLeases role ((s.leases role).eraseIdx 0))) = _
    rw [hGiven]
    simp only [System.setLeases, hRunning, Bool.false_eq_true, if_false, Function.update_self,
      Function.update_idem, List.eraseIdx_cons_zero]

/-- A close is a step of the pool. -/
theorem leads_close : Leads x.view { x.view with pool := x.slots.close } := by
  refine leads_step .close ?_
  unfold System.step
  rw [if_neg (by rw [h.running]; decide)]
  rfl

/-- A lease that was published goes out of scope. -/
theorem leads_publish {lease : FrameLease} {slots : FrameSlotPool}
    (hLease : x.view.leases .producer = [lease]) (hWaits : x.view.writeWaits = false)
    (hOk : lease.withToken "write lease is not active"
      (x.slots.publishWrite (x.threads .producer)) = .ok slots) :
    Leads x.view { x.view.setLeases .producer [] with
      pool := slots, history := x.history.publish x.slots lease.token } := by
  have hRunning : x.view.terminated = false := h.running
  have hPublish : x.view.publish 0 lease =
      { x.view.setLeases .producer [{ lease with active := false }] with
        pool := slots, history := x.history.publish x.slots lease.token } := by
    unfold System.publish
    rw [show lease.withToken "write lease is not active"
      (x.view.pool.publishWrite (x.view.threads .producer)) = .ok slots from hOk, hLease]
    rfl
  have hFirst : x.view.step (.publish 0) = some (x.view.publish 0 lease) := by
    simp only [System.step, hRunning, hWaits, Bool.false_eq_true, if_false, hLease]
    rfl
  refine leads_trans (leads_step (.publish 0) hFirst) (leads_step (.lease .producer (.destroy 0)) ?_)
  · rw [hPublish]
    have hIdle : System.waits { x.view.setLeases .producer [{ lease with active := false }] with
        pool := slots, history := x.history.publish x.slots lease.token } .producer = false := hWaits
    rw [step_lease (by exact hRunning) hIdle]
    rw [System.leaseStep]
    simp only [System.giveBack, FrameLease.giveBack, FrameLease.usable, System.setLeases,
      Function.update_self, List.getElem?_cons_zero, Bool.false_and, Bool.false_eq_true, if_false,
      Option.bind_eq_bind, Option.bind_some, hRunning, List.set_cons_zero, Function.update_idem,
      List.eraseIdx_cons_zero]

omit h in
/-- A use of the lease that throws leaves the producer with it. -/
theorem leads_useWrite {old : Producer} {lease : FrameLease}
    {use : FrameSlotToken → Except FrameSlotError FrameSlotPool}
    {next : FrameSlotPool → FrameExchange} (hProducer : x.producer = old)
    (hLease : old.lease = some lease) (hWaits : old.waits = false)
    (hNext : ∀ slots, lease.withToken "write lease is not active" use = .ok slots →
      Leads x.view (next slots).view) : Leads x.view (x.useWrite lease use next).view := by
  unfold useWrite
  split
  · rename_i slots hOk
    exact hNext slots hOk
  · have hKept : (Producer.unwinding lease).lease = old.lease := hLease.symm
    have hGoes : (Producer.unwinding lease).waits = old.waits := hWaits.symm
    exact leads_same (view_producer x.slots hProducer hKept hGoes).symm

/-- What the producer does, it does to the pool through its lease. -/
theorem leads_producer (hStep : x.stepProducer = some x') :
    Leads x.view x'.view := by
  have hRunning : x.view.terminated = false := h.running
  unfold stepProducer at hStep
  cases hProducer : x.producer with
  | idle => rw [hProducer] at hStep; exact nomatch hStep
  | acquiring record =>
    rw [hProducer] at hStep
    obtain rfl := Option.some.inj hStep
    refine leads_acquiredWrite h (by rw [hProducer]; rfl) record .resumeWrite ?_
    have hWaits : x.view.writeWaits = true := by
      show x.producer.waits = true
      rw [hProducer]
      rfl
    simp only [System.step, hRunning, hWaits, Bool.false_eq_true, if_false, if_true]
    rfl
  | writing record lease =>
    rw [hProducer] at hStep
    simp only at hStep
    split at hStep
    · exact nomatch hStep
    rename_i hRoom
    obtain rfl := Option.some.inj hStep
    obtain ⟨hLease, hWaits⟩ := view_of_lease hProducer rfl
    refine leads_useWrite hProducer rfl rfl fun slots hOk => ?_
    refine leads_step (.write 0 0 record.bytes) ?_
    have hNot : ¬(x.view.writeWaits = true ∨
        x.view.pool.payloadCapacity < 0 + record.bytes.length) := by
      rw [hWaits, Nat.zero_add]
      rintro (hNo | hNo)
      · exact nomatch hNo
      · exact hRoom hNo
    simp only [System.step, hRunning, Bool.false_eq_true, if_false, hNot]
    refine (view_useWrite hLease hOk).trans (congrArg some ?_)
    exact (view_producer slots hProducer (by rfl) (by rfl)).symm
  | sizing record lease =>
    rw [hProducer] at hStep
    obtain rfl := Option.some.inj hStep
    obtain ⟨hLease, hWaits⟩ := view_of_lease hProducer rfl
    refine leads_useWrite hProducer rfl rfl fun slots hOk => ?_
    refine leads_step (.setPayloadSize 0 record.bytes.length) ?_
    simp only [System.step, hRunning, hWaits, Bool.false_eq_true, if_false]
    refine (view_useWrite hLease hOk).trans (congrArg some ?_)
    exact (view_producer slots hProducer (by rfl) (by rfl)).symm
  | sending frame lease =>
    rw [hProducer] at hStep
    simp only at hStep
    split at hStep <;> obtain rfl := Option.some.inj hStep
    · exact leads_same (view_producer x.slots hProducer (by rfl) (by rfl)).symm
    · exact leads_same (view_producer x.slots hProducer (by rfl) (by rfl)).symm
    · exact leads_same (view_producer x.slots hProducer (by rfl) (by rfl)).symm
  | sent frame lease =>
    rw [hProducer] at hStep
    obtain rfl := Option.some.inj hStep
    obtain ⟨hLease, hWaits⟩ := view_of_lease hProducer rfl
    refine leads_useWrite hProducer rfl rfl fun slots hOk => ?_
    have hView : ({ x with
        slots, producer := .idle
        history := x.history.publish x.slots lease.token } : FrameExchange).view =
        { x.view.setLeases .producer [] with
          pool := slots, history := x.history.publish x.slots lease.token } := by
      simp only [view, System.setLeases, System.mk.injEq, and_true, true_and]
      exact ⟨(update_producer rfl).symm, by rw [hProducer]; rfl⟩
    rw [hView]
    exact leads_publish h hLease hWaits hOk
  | unwinding lease =>
    obtain ⟨hLease, hWaits⟩ := view_of_lease hProducer rfl
    obtain ⟨slots, l, hGive, hLeads⟩ := leads_giveBack h .producer hWaits hLease
    rw [hProducer] at hStep
    simp only [hGive] at hStep
    obtain rfl := Option.some.inj hStep
    have hView : ({ x with slots, producer := .failing } : FrameExchange).view =
        { x.view.setLeases .producer [] with pool := slots } := by
      simp only [view, System.setLeases, System.mk.injEq, and_true, true_and]
      exact ⟨(update_producer rfl).symm, by rw [hProducer]; rfl⟩
    rw [hView]
    exact hLeads
  | failing =>
    rw [hProducer] at hStep
    obtain rfl := Option.some.inj hStep
    exact leads_same (view_producer x.slots hProducer (by rfl) (by rfl)).symm
  | failed =>
    rw [hProducer] at hStep
    obtain rfl := Option.some.inj hStep
    rw [view_producer x.slots.close hProducer (by rfl) (by rfl)]
    exact leads_close h
  | closing =>
    rw [hProducer] at hStep
    obtain rfl := Option.some.inj hStep
    exact leads_same (view_producer x.slots hProducer (by rfl) (by rfl)).symm
  | stopped => rw [hProducer] at hStep; exact nomatch hStep

/-- What the consumer does, it does to the pool through its lease. -/
theorem leads_consumer {checks : Bool} (hStep : x.stepConsumer checks = some x') :
    Leads x.view x'.view := by
  have hRunning : x.view.terminated = false := h.running
  unfold stepConsumer at hStep
  cases hConsumer : x.consumer with
  | idle =>
    rw [hConsumer] at hStep
    simp only at hStep
    split at hStep <;> obtain rfl := Option.some.inj hStep
    · exact leads_same (view_consumer x.slots hConsumer (by rfl) (by rfl)).symm
    · refine leads_same (view_consumer x.slots hConsumer ?_ ?_).symm <;> split <;> rfl
    · exact leads_same (view_consumer x.slots hConsumer (by rfl) (by rfl)).symm
    · exact leads_same (view_consumer x.slots hConsumer (by rfl) (by rfl)).symm
  | received packet =>
    have hWaits : x.view.readWaits = none := by
      show x.consumer.waitsFor = none
      rw [hConsumer]
      rfl
    rw [hConsumer] at hStep
    simp only at hStep
    split at hStep <;> obtain rfl := Option.some.inj hStep
    · exact leads_same (view_consumer x.slots hConsumer (by rfl) (by rfl)).symm
    · rename_i token hToken
      refine leads_acquiredRead h (by rw [hConsumer]; rfl) packet (.acquireRead token) ?_
      simp only [System.step, hRunning, hWaits, Option.isSome_none, Bool.false_eq_true, if_false]
      rfl
  | waiting packet token =>
    have hWaits : x.view.readWaits = some token := by
      show x.consumer.waitsFor = some token
      rw [hConsumer]
      rfl
    rw [hConsumer] at hStep
    obtain rfl := Option.some.inj hStep
    refine leads_acquiredRead h (by rw [hConsumer]; rfl) packet .resumeRead ?_
    simp only [System.step, hRunning, hWaits, Option.map_some, Bool.false_eq_true, if_false]
    rfl
  | reading packet lease =>
    rw [hConsumer] at hStep
    simp only at hStep
    split at hStep <;> obtain rfl := Option.some.inj hStep
    · exact leads_same (view_consumer x.slots hConsumer (by rfl) (by rfl)).symm
    · exact leads_same (view_consumer x.slots hConsumer (by rfl) (by rfl)).symm
  | releasing lease checked =>
    have hLease : x.view.leases .consumer = [lease] := by
      show leasesOf x.producer x.consumer .consumer = [lease]
      rw [leasesOf, hConsumer]
      rfl
    have hWaits : x.view.waits .consumer = false := by
      show x.consumer.waitsFor.isSome = false
      rw [hConsumer]
      rfl
    obtain ⟨slots, l, hGive, hLeads⟩ := leads_giveBack h .consumer hWaits hLease
    rw [hConsumer] at hStep
    simp only [hGive] at hStep
    obtain rfl := Option.some.inj hStep
    have hView : ({ x with
        slots, consumer := if checked then .idle else .failing } : FrameExchange).view =
        { x.view.setLeases .consumer [] with pool := slots } := by
      simp only [view, System.setLeases, System.mk.injEq, and_true, true_and]
      refine ⟨(update_consumer ?_).symm, ?_⟩
      · cases checked <;> rfl
      · rw [hConsumer]
        cases checked <;> rfl
    rw [hView]
    exact hLeads
  | failing =>
    rw [hConsumer] at hStep
    obtain rfl := Option.some.inj hStep
    exact leads_same (view_consumer x.slots hConsumer (by rfl) (by rfl)).symm
  | failed =>
    rw [hConsumer] at hStep
    obtain rfl := Option.some.inj hStep
    rw [view_consumer x.slots.close hConsumer (by rfl) (by rfl)]
    exact leads_close h
  | stopped => rw [hConsumer] at hStep; exact nomatch hStep

/-- A step of the exchange is a run of its pool. -/
theorem step_view {move : Move} (hStep : x.step move = some x') :
    Leads x.view x'.view := by
  have hRunning : x.terminated = false := h.running
  have hView : x.view.terminated = false := hRunning
  unfold FrameExchange.step at hStep
  rw [if_neg (by rw [hRunning]; decide)] at hStep
  cases move with
  | produce record =>
    simp only at hStep
    split at hStep
    · rename_i hMay
      obtain rfl := Option.some.inj hStep
      refine leads_acquiredWrite h (by rw [hMay]; rfl) record .acquireWrite ?_
      have hWaits : x.view.writeWaits = false := by
        show x.producer.waits = false
        rw [hMay]
        rfl
      simp only [System.step, hView, hWaits, Bool.false_eq_true, if_false]
      rfl
    · exact nomatch hStep
  | stop =>
    simp only at hStep
    split at hStep
    · rename_i hIdle
      obtain rfl := Option.some.inj hStep
      exact leads_same (view_producer x.slots hIdle (by rfl) (by rfl)).symm
    · exact nomatch hStep
  | producer => exact leads_producer h hStep
  | consumer checks => exact leads_consumer h hStep
  | closeChannel =>
    obtain rfl := Option.some.inj hStep
    exact leads_same rfl
  | closeSlots =>
    obtain rfl := Option.some.inj hStep
    exact leads_close h

end Lead

end FrameExchange

end Ithax.Threading
