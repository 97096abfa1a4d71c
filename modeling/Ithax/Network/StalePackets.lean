import Ithax.Network.Calls
import Ithax.Network.Duplex
import Ithax.Network.SessionSteps

/-!
# Packets of an earlier generation

A program around a client: it makes the client's calls, decodes values into packets under
the generation of the moment and keeps them, registers handlers, and hands packets it has
kept to its dispatcher, in any order. A log records what a handler was called for and what
each `Dispatch` did, with the generation that was current then.

The documentation has messages of a stale generation rejected. `HandleIncoming` decodes what
it handles itself, so its packets are never stale; `Dispatch` does not look at the generation.

## Results

* `hoare_handled_receive`  — `Receive` calls the `CallRsp` handler for a fresh packet only.
* `stale_rejected_iff`     — the runs in which nothing stale reaches a handler.
-/

namespace Ithax.Network

open Ithax.Lib Ithax.Marshal

-- ---------------------------------------------------------------------------
-- Programs
-- ---------------------------------------------------------------------------

/-- What the program does next. -/
inductive HostCall (Out : Type) where
  | client (call : ClientCall)
  /-- `Packet::Decode` under the generation of the client. -/
  | decode (value : Value)
  | register (registration : Registration Out)
  /-- `Dispatch` of the packet that was kept as number `i`. -/
  | dispatch (i : Nat)

/-- What the log records, with the generation of the moment. -/
inductive HostEvent (Out : Type) where
  | handled (packet : Packet) (generation : UInt64)
  | dispatched (packet : Packet) (generation : UInt64) (result : Except DispatchError Out)

/-- The program. -/
structure Host (Out : Type) where
  client : Client
  dispatcher : Dispatcher Out := {}
  /-- The packets it has decoded, oldest first. -/
  packets : List Packet := []
  log : List (HostEvent Out) := []

namespace Host

variable {Out : Type}

/-- The calls of the `CallRsp` handler between two states of the client. -/
def handledBy (before after : Client) : List (HostEvent Out) :=
  (after.handled.drop before.handled.length).map fun entry =>
    .handled entry.1 after.generation

/-- The program after one call. -/
def call (cipher : Cipher) (h : Host Out) : HostCall Out → Host Out
  | .client call =>
    let client := h.client.call cipher call
    { h with client, log := h.log ++ handledBy h.client client }
  | .decode value =>
    match Packet.decode value h.client.generation with
    | .ok packet => { h with packets := h.packets ++ [packet] }
    | .error _ => h
  | .register registration => { h with dispatcher := h.dispatcher.perform registration }
  | .dispatch i =>
    match h.packets[i]? with
    | some packet =>
      { h with log := h.log ++
        [.dispatched packet h.client.generation (h.dispatcher.dispatch packet)] }
    | none => h

/-- The program after some calls. -/
def runCalls (cipher : Cipher) (h : Host Out) (calls : List (HostCall Out)) : Host Out :=
  calls.foldl (call cipher) h

/-- A program with a fresh client. -/
def create (host : String) (outside : Outside) : Host Out :=
  { client := Client.create host outside }

end Host

/-- No handler was called for a packet of another generation than the current one. -/
def HostEvent.StaleRejected {Out : Type} : HostEvent Out → Prop
  | .handled packet generation => packet.generation = generation
  | .dispatched packet generation result =>
    packet.generation ≠ generation → ∃ e, result = .error e

/-- No entry of the log is a handler called for a stale packet. -/
def StaleRejected {Out : Type} (log : List (HostEvent Out)) : Prop :=
  ∀ event ∈ log, event.StaleRejected

-- ---------------------------------------------------------------------------
-- The condition
-- ---------------------------------------------------------------------------

/-- The packet is a request for a method that has a handler. -/
def Dispatcher.Serves {Out : Type} (d : Dispatcher Out) (packet : Packet) : Prop :=
  ∃ call, CallRequest.decode packet = .ok call ∧ d.hasHandler call.service call.method = true

namespace Host

variable {Out : Type}

/-- The call is not the dispatch of a stale request for a method that has a handler. -/
def Spares (h : Host Out) : HostCall Out → Prop
  | .dispatch i => ∀ packet, h.packets[i]? = some packet →
    packet.generation ≠ h.client.generation → ¬h.dispatcher.Serves packet
  | _ => True

/-- Every call of the run is such a call. -/
def SparesAll (cipher : Cipher) : Host Out → List (HostCall Out) → Prop
  | _, [] => True
  | h, call :: calls => h.Spares call ∧ SparesAll cipher (h.call cipher call) calls

end Host

/-- A dispatch throws unless the packet is a request for a method that has a handler. -/
theorem Dispatcher.dispatch_error_iff {Out : Type} (d : Dispatcher Out) (packet : Packet) :
    (∃ e, d.dispatch packet = .error e) ↔ ¬d.Serves packet := by
  have hServes : d.Serves packet ↔ ∃ out, d.dispatch packet = .ok out := by
    simp only [Serves, hasHandler_eq, Option.isSome_iff_exists, dispatch_eq_ok_iff]
    constructor
    · rintro ⟨call, hCall, handler, hLookup⟩
      exact ⟨_, call, handler, hCall, hLookup, rfl⟩
    · rintro ⟨-, call, handler, hCall, hLookup, -⟩
      exact ⟨call, hCall, handler, hLookup⟩
  rw [hServes]
  cases d.dispatch packet with
  | error e => simp
  | ok out => simp

-- ---------------------------------------------------------------------------
-- What the client handles
-- ---------------------------------------------------------------------------

/-- `Packet::Decode` stamps the packet. -/
theorem Packet.generation_decode {value : Value} {generation : UInt64} {packet : Packet}
    (h : Packet.decode value generation = .ok packet) : packet.generation = generation := by
  unfold Packet.decode at h
  split at h
  · split at h
    · cases h
    · split at h
      · cases h
      · rename_i items _ _
        unfold Packet.decodeItems at h
        split at h
        · obtain ⟨code, -, h⟩ := Checked.bind_eq_ok h
          obtain ⟨source, -, h⟩ := Checked.bind_eq_ok h
          obtain ⟨dest, -, h⟩ := Checked.bind_eq_ok h
          obtain ⟨userId, -, h⟩ := Checked.bind_eq_ok h
          cases h
          rfl
        · cases h
  · cases h
  · cases h

namespace Client

/-- What the handler was called for so far. -/
abbrev Handled (entries : List (Packet × Option Value)) (c : Client) : Prop :=
  c.handled = entries

/-- The handler was not called, or once more for a packet of the current generation. -/
def HandledFresh (entries : List (Packet × Option Value)) (c : Client) : Prop :=
  c.handled = entries ∨
    ∃ packet result, c.handled = entries ++ [(packet, result)] ∧
      packet.generation = c.generation

section Handled

variable {cipher : Cipher} {entries : List (Packet × Option Value)} {α : Type}

/-- What is done on the connection calls no handler. -/
theorem keeps_handled_onLink (m : LinkM α) : Keeps (Handled entries) (onLink m) :=
  keeps_onLink_of_outer (fun _ _ hc => hc) m

/-- Establishing a session calls no handler. -/
theorem keeps_handled_establishSession : Keeps (Handled entries) (establishSession cipher) :=
  have hSteps : KeptBySteps cipher (Handled entries) :=
    .of_outer (fun _ _ hc => hc) fun _ _ hc => hc
  hSteps.keeps_establishSession fun _ => keeps_handled_onLink _

/-- Nor does trying again. -/
theorem keeps_handled_connectLoop (now : Int) (rounds : Nat) (attempt : UInt32) :
    Keeps (Handled entries) (connectLoop cipher now rounds attempt) := by
  induction rounds generalizing attempt with
  | zero => exact keeps_pure _
  | succ rounds ih =>
    intro c hc
    have hSession := @keeps_handled_establishSession cipher entries c hc
    simp only [connectLoop]
    cases hRun : establishSession cipher c with
    | ok done c' =>
      rw [hRun] at hSession
      exact hSession
    | error e c' =>
      rw [hRun] at hSession
      by_cases hMore : attempt + 1 > c'.reconnectAttempts
      · simp only [hMore, if_true]
        exact hSession
      · simp only [hMore, if_false]
        exact ih (attempt + 1) _ hSession

/-- Nor does `Connect`. -/
theorem keeps_handled_connect (now : Int) (rounds : Nat) :
    Keeps (Handled entries) (connect cipher now rounds) :=
  keeps_get.seq fun _ => Hoare.ite (fun _ => keeps_throw _)
    fun _ => keeps_handled_connectLoop now rounds 0

/-- Sending calls no handler. -/
theorem keeps_handled_sendPacket (packet : Packet) :
    Keeps (Handled entries) (sendPacket cipher packet) := keeps_handled_onLink _

/-- Nor does `SendCall`. -/
theorem keeps_handled_sendCall (service method : Bytes) (args : List Value)
    (kwargs : Option Value) :
    Keeps (Handled entries) (sendCall cipher service method args kwargs) := by
  refine keeps_requireConnected.seq fun _ => ?_
  exact (keeps_fromExcept _ _).seq fun body => keeps_handled_sendPacket _

/-- Nor does `SendPing`. -/
theorem keeps_handled_sendPing : Keeps (Handled entries) (sendPing cipher) :=
  keeps_requireConnected.seq fun _ => keeps_handled_sendPacket _

/-- Nor does `SendNotification`. -/
theorem keeps_handled_sendNotification (type : Bytes) (args : List Value) :
    Keeps (Handled entries) (sendNotification cipher type args) :=
  keeps_requireConnected.seq fun _ => keeps_handled_sendPacket _

/-- Nor does `PumpOnce`. -/
theorem keeps_handled_pumpOnce (now : Int) : Keeps (Handled entries) (pumpOnce cipher now) := by
  refine keeps_get.seq fun c => ?_
  refine Hoare.ite (fun _ => ?_) fun _ => keeps_pure _
  refine Hoare.ite (fun _ => ?_) fun _ => keeps_pure _
  exact keeps_handled_sendPing.seq fun _ => hoare_modify fun _ hc => hc

/-- The handler is called for the packet that was just decoded. -/
theorem hoare_handled_handleIncoming (value : Value) :
    Hoare (Handled entries) (handleIncoming cipher value)
      (fun _ => HandledFresh entries) (HandledFresh entries) := by
  refine (hoare_get (Q := fun c c' => Handled entries c' ∧ c = c') fun _ hc =>
    ⟨hc, rfl⟩).bind fun c => ?_
  refine (hoare_fromExcept fun _ hc => Or.inl hc.1).bind fun packet => ?_
  refine Hoare.assuming fun hDecode => ?_
  have hStamp : packet.generation = c.generation := Packet.generation_decode hDecode
  split
  · have hKeep : Keeps (Handled entries) (handlePingReq cipher packet) :=
      keeps_handled_sendPacket _
    exact (hKeep.strengthen fun _ hc => hc.1).weaken (fun _ _ h => Or.inl h) fun _ h => Or.inl h
  · refine (hoare_get (Q := fun _ c' => Handled entries c' ∧ c = c') fun _ hc => hc).bind
      fun _ => ?_
    refine Hoare.ite (fun _ => ?_) fun _ => hoare_pure fun _ hc => Or.inl hc.1
    refine ((keeps_decodeCallRsp packet).weaken (fun _ _ h => h) fun _ h => Or.inl h.1).bind
      fun result => ?_
    refine hoare_modify fun c' hc => Or.inr ⟨packet, result, ?_, ?_⟩
    · exact congrArg (· ++ [(packet, result)]) hc.1
    · rw [hStamp, hc.2]
      rfl
  · exact hoare_pure fun _ hc => Or.inl hc.1

/-- `Receive` adds at most one packet of the current generation to what was handled. -/
theorem hoare_handled_receive :
    Hoare (Handled entries) (receive cipher) (fun _ => HandledFresh entries)
      (HandledFresh entries) := by
  refine (keeps_requireConnected.weaken (fun _ _ h => h) fun _ h => Or.inl h).bind
    fun _ => ?_
  refine ((keeps_handled_onLink _).weaken (fun _ _ h => h) fun _ h => Or.inl h).bind
    fun value => ?_
  exact (hoare_handled_handleIncoming value).bind fun _ => hoare_pure fun _ hc => hc

end Handled

/-- However a call ends, what it handled was fresh. -/
theorem handledFresh_finalState {α : Type} {m : ClientM α} {c : Client}
    (h : Hoare (Handled c.handled) m (fun _ => HandledFresh c.handled)
      (HandledFresh c.handled)) : HandledFresh c.handled (finalState (m c)) := by
  have hRun := h c rfl
  cases hm : m c with
  | ok a c' =>
    rw [hm] at hRun
    exact hRun
  | error e c' =>
    rw [hm] at hRun
    exact hRun

/-- What any call of a client handled was fresh. -/
theorem handledFresh_call (cipher : Cipher) (c : Client) (call : ClientCall) :
    HandledFresh c.handled (c.call cipher call) := by
  cases call with
  | connect now rounds => exact Or.inl ((keeps_handled_connect now rounds).finalState rfl)
  | disconnect => exact Or.inl rfl
  | setHeartbeatInterval intervalMs => exact Or.inl rfl
  | setReconnectPolicy maxAttempts delayMs => exact Or.inl rfl
  | setCallRspHandler installed => exact Or.inl rfl
  | sendCall service method args kwargs =>
    exact Or.inl ((keeps_handled_sendCall service method args kwargs).finalState rfl)
  | sendPing => exact Or.inl (keeps_handled_sendPing.finalState rfl)
  | sendNotification type args =>
    exact Or.inl ((keeps_handled_sendNotification type args).finalState rfl)
  | receive => exact handledFresh_finalState hoare_handled_receive
  | pumpOnce now => exact Or.inl ((keeps_handled_pumpOnce now).finalState rfl)

end Client

-- ---------------------------------------------------------------------------
-- Runs
-- ---------------------------------------------------------------------------

/-- A log is judged entry by entry. -/
theorem staleRejected_append {Out : Type} (before after : List (HostEvent Out)) :
    StaleRejected (before ++ after) ↔ StaleRejected before ∧ StaleRejected after :=
  List.forall_mem_append

namespace Host

variable {Out : Type} {cipher : Cipher}

/-- What the client handled itself is never stale. -/
theorem staleRejected_handledBy {before after : Client}
    (h : Client.HandledFresh before.handled after) :
    StaleRejected (handledBy before after : List (HostEvent Out)) := by
  intro event hEvent
  rcases h with hSame | ⟨packet, result, hMore, hStamp⟩
  · rw [handledBy, hSame, List.drop_length] at hEvent
    cases hEvent
  · rw [handledBy, hMore, List.drop_left, List.map_singleton, List.mem_singleton] at hEvent
    rw [hEvent]
    exact hStamp

/-- What one call adds to the log is sound exactly when the call is spared. -/
theorem staleRejected_call (h : Host Out) (call : HostCall Out) :
    StaleRejected (h.call cipher call).log ↔ StaleRejected h.log ∧ h.Spares call := by
  cases call with
  | client call =>
    have hNew : StaleRejected (handledBy h.client (h.client.call cipher call) :
        List (HostEvent Out)) :=
      staleRejected_handledBy (Client.handledFresh_call cipher h.client call)
    simp only [Host.call, staleRejected_append, hNew, Spares]
  | decode value =>
    simp only [Host.call, Spares, and_true]
    cases Packet.decode value h.client.generation <;> rfl
  | register registration => simp only [Host.call, Spares, and_true]
  | dispatch i =>
    cases hPacket : h.packets[i]? with
    | none => simp [Host.call, Spares, hPacket]
    | some packet =>
      simp only [Host.call, Spares, hPacket, staleRejected_append, Option.some.injEq,
        forall_eq']
      simp only [StaleRejected, List.mem_singleton, forall_eq, HostEvent.StaleRejected,
        Dispatcher.dispatch_error_iff]

/-- The log of a run shows nothing stale exactly when every call spares what is stale. By
induction on the calls. -/
theorem staleRejected_runCalls (h : Host Out) (calls : List (HostCall Out)) :
    StaleRejected (h.runCalls cipher calls).log ↔
      StaleRejected h.log ∧ h.SparesAll cipher calls := by
  induction calls generalizing h with
  | nil => simp [runCalls, SparesAll]
  | cons call calls ih =>
    have hStep : h.runCalls cipher (call :: calls) = (h.call cipher call).runCalls cipher calls :=
      rfl
    rw [hStep, ih, staleRejected_call, SparesAll, and_assoc]

/-- Nothing stale reaches a handler exactly in the runs that never dispatch a stale request
for a method that has one. -/
theorem stale_rejected_iff (cipher : Cipher) (host : String) (outside : Outside)
    (calls : List (HostCall Out)) :
    StaleRejected ((create host outside).runCalls cipher calls).log ↔
      (create host outside).SparesAll cipher calls := by
  have hStart : StaleRejected (create host outside : Host Out).log := by
    intro event hEvent
    cases hEvent
  rw [staleRejected_runCalls]
  exact and_iff_right hStart

/-- The padding of the session crypto without its block cipher. -/
def paddingCipher : Cipher where
  encrypt _ _ plaintext := pad plaintext
  decrypt _ _ ciphertext := unpad ciphertext

/-- The bytes of a frame with the given value. -/
def bytesOf (value : Value) : Bytes :=
  match encode value with
  | .ok bytes => bytes
  | .error _ => []

/-- The answers of a server in one handshake, the last three of them encrypted. -/
def serverAnswers : List Received :=
  [.data (frameBytes (bytesOf (.tuple (List.replicate 7 .none)))),
    .data (frameBytes (bytesOf (.string kOkCc))),
    .data (frameBytes (pad (bytesOf (.int 2)))),
    .data (frameBytes (pad (bytesOf (.tuple (List.replicate 4 .none))))),
    .data (frameBytes (pad (bytesOf (.dict []))))]

/-- The outside of two sessions. -/
def twoSessions : Outside where
  lookups := List.replicate 2 (some [.inet 0x7f000001])
  sockets := List.replicate 2 (some 1)
  connects := List.replicate 2 true
  sends := List.replicate 10 1048576
  receives := serverAnswers ++ serverAnswers

/-- A request is decoded in the first session and dispatched in the second. -/
def oldCalls : List (HostCall Nat) :=
  [.client (.connect 0 1),
    .decode (packetOfBody (ascii "s")
      (bytesOf (callBody (ascii "s") (ascii "m") [] none))).encode,
    .register (.method (ascii "s") (ascii "m") fun _ _ => 7),
    .client .disconnect, .client (.connect 0 1), .dispatch 0]

/-- A handler ran for a packet of another generation. -/
def isStaleRun : HostEvent Nat → Bool
  | .dispatched packet generation (.ok _) => packet.generation != generation
  | _ => false

/-- An entry of the log that was dispatched under another generation, with a result. -/
theorem not_staleRejected_of_isStaleRun {log : List (HostEvent Nat)}
    (h : log.any isStaleRun = true) : ¬StaleRejected log := by
  intro hRejected
  obtain ⟨event, hEvent, hStale⟩ := List.any_eq_true.mp h
  have hHere := hRejected event hEvent
  cases event with
  | handled packet generation => cases hStale
  | dispatched packet generation result =>
    cases result with
    | error e => cases hStale
    | ok out =>
      obtain ⟨e, hError⟩ := hHere (bne_iff_ne.mp hStale)
      cases hError

/-- A call request of the first session is dispatched in the second, and answered. -/
theorem not_staleRejected_oldCalls :
    ((create "localhost" twoSessions).runCalls paddingCipher oldCalls).client.isConnected =
      true ∧
    ¬StaleRejected ((create "localhost" twoSessions).runCalls paddingCipher oldCalls).log := by
  have hRun : (((create "localhost" twoSessions).runCalls paddingCipher oldCalls).client.isConnected
      && ((create "localhost" twoSessions).runCalls paddingCipher oldCalls).log.any
        isStaleRun) = true := by decide +kernel
  obtain ⟨hConnected, hAny⟩ := Bool.and_eq_true_iff.mp hRun
  exact ⟨hConnected, not_staleRejected_of_isStaleRun hAny⟩

end Host

end Ithax.Network
