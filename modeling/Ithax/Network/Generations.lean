import Ithax.Network.LinkCalls

/-!
# Connection generations

Any calls of a `Connection` in any order, against any outside. A session keeps a log beside
the connection: every `Connect` that succeeded, the bytes that `recv` delivered, the session
crypto that was installed, and every value that was sent or returned with the session crypto
that it went through.

What happened since the last `Connect` that succeeded is the current generation. The decoder
holds the end of its bytes behind whole frames, and the session crypto is one that was
installed in it, because `Connect` replaces both and nothing puts them back.

## Results

* `events_of_run` — the generation counts the successful `Connect`s, and whatever is returned
  or sent belongs to the generation that is current then.
* `generation_wraps` — after `2 ^ 64` of them the count starts over.
-/

namespace Ithax.Network

open Ithax.Lib

-- ---------------------------------------------------------------------------
-- Sessions
-- ---------------------------------------------------------------------------

/-- The public calls of a connection. -/
inductive ConnectionCall where
  | connect (host : String)
  | disconnect
  | sendMarshal (value : Marshal.Value)
  | receiveMarshal
  /-- `none` is the null pointer. -/
  | setSessionCrypto (crypto : Option SessionCrypto)

/-- What the log records. -/
inductive ConnectionEvent where
  | connected (generation : UInt64)
  | sent (transmission : Transmission)
  | received (bytes : Bytes)
  | returned (value : Marshal.Value) (crypto : Option SessionCrypto)
  | installed (crypto : Option SessionCrypto)

/-- A connection with its log. -/
structure Session where
  link : Link
  log : List ConnectionEvent := []

/-- The answers of `recv` that a call has taken. -/
def Link.takenBy (before after : Link) : List Received :=
  before.network.receives.take (before.network.receives.length - after.network.receives.length)

/-- What a call has written. -/
def Link.writtenBy (before after : Link) : List Transmission := after.wire.drop before.wire.length

/-- `SetSessionCrypto`, of the null pointer too. -/
def Link.replaceCrypto (l : Link) : Option SessionCrypto → Link
  | some crypto => finalState (setSessionCrypto crypto l)
  | none => { l with connection := { l.connection with crypto := none } }

/-- The member is replaced. -/
theorem Link.replaceCrypto_eq (l : Link) (crypto : Option SessionCrypto) :
    l.replaceCrypto crypto = { l with connection := { l.connection with crypto } } := by
  cases crypto with
  | none => rfl
  | some crypto => rfl

namespace Session

/-- The session after one call. What was logged stays logged when the call throws. -/
def call (cipher : Cipher) (s : Session) : ConnectionCall → Session
  | .connect host =>
    match s.link.connect host with
    | .ok () link => ⟨link, s.log ++ [.connected link.connection.generation]⟩
    | .error _ link => ⟨link, s.log⟩
  | .disconnect => ⟨s.link.disconnect, s.log⟩
  | .sendMarshal value =>
    let link := finalState (Link.sendMarshal cipher value s.link)
    ⟨link, s.log ++ (s.link.writtenBy link).map .sent⟩
  | .receiveMarshal =>
    match Link.receiveMarshal cipher s.link with
    | .ok value link =>
      ⟨link, s.log ++ [.received (deliveredBytes (s.link.takenBy link)),
        .returned value s.link.connection.crypto]⟩
    | .error _ link => ⟨link, s.log ++ [.received (deliveredBytes (s.link.takenBy link))]⟩
  | .setSessionCrypto crypto => ⟨s.link.replaceCrypto crypto, s.log ++ [.installed crypto]⟩

/-- The session after some calls. -/
def runCalls (cipher : Cipher) (s : Session) (calls : List ConnectionCall) : Session :=
  calls.foldl (call cipher) s

/-- A new connection and the outside it will meet. -/
def start (network : Outside) : Session := { link := { network } }

end Session

-- ---------------------------------------------------------------------------
-- The current generation
-- ---------------------------------------------------------------------------

/-- A generation begins with the event. -/
def ConnectionEvent.isConnected : ConnectionEvent → Bool
  | .connected _ => true
  | _ => false

/-- The bytes that were received. -/
def ConnectionEvent.bytes : ConnectionEvent → Bytes
  | .received bytes => bytes
  | _ => []

/-- The successful `Connect`s. -/
def connects (log : List ConnectionEvent) : Nat := log.countP ConnectionEvent.isConnected

/-- The bytes of all events, in order. -/
def receivedBytes (events : List ConnectionEvent) : Bytes := events.flatMap ConnectionEvent.bytes

/-- The session crypto that the last `SetSessionCrypto` installed. -/
def installedCrypto : List ConnectionEvent → Option SessionCrypto :=
  List.foldl (fun crypto event =>
    match event with
    | .installed crypto => crypto
    | _ => crypto) none

/-- What happened since the last `Connect` that succeeded. -/
def Current (log current : List ConnectionEvent) : Prop :=
  ∃ earlier generation, log = earlier ++ .connected generation :: current ∧
    ∀ event ∈ current, event.isConnected = false

/-- The crypto is the one that was installed, up to its use. -/
def InstalledIn (events : List ConnectionEvent) (crypto : SessionCrypto) : Prop :=
  ∃ installed ∈ installedCrypto events, installed.Descends crypto

/-- The value is what a frame of the stream holds. -/
def DecodedFrom (cipher : Cipher) (crypto : Option SessionCrypto) (stream : Bytes)
    (value : Marshal.Value) : Prop :=
  ∃ frames payload rest, WithinLimit (frames ++ [payload]) ∧
    stream = frameStream (frames ++ [payload]) ++ rest ∧ Link.Opens cipher crypto payload value

/-- What an event has to do with the events before it. -/
def EventSound (cipher : Cipher) (before : List ConnectionEvent) : ConnectionEvent → Prop
  | .connected generation =>
    generation = UInt64.ofNat (connects before) + 1 ∧
    (connects before + 1 < 2 ^ 64 → UInt64.ofNat (connects before) < generation)
  | .returned value crypto => ∃ current, Current before current ∧
    DecodedFrom cipher crypto (receivedBytes current) value ∧ ∀ c ∈ crypto, InstalledIn current c
  | .sent transmission => ∃ current, Current before current ∧
    ∀ c ∈ transmission.crypto, InstalledIn current c
  | .received _ => True
  | .installed _ => True

section Log

variable {log current : List ConnectionEvent} {event : ConnectionEvent}

/-- A new generation has no events. -/
theorem current_connected (log : List ConnectionEvent) (generation : UInt64) :
    Current (log ++ [.connected generation]) [] :=
  ⟨log, generation, rfl, nofun⟩

/-- Only a new generation has none. -/
theorem Current.eq_nil {generation : UInt64}
    (h : Current (log ++ [.connected generation]) current) : current = [] := by
  obtain ⟨earlier, generation', hLog, hNone⟩ := h
  rcases List.eq_nil_or_concat current with hNil | ⟨front, last, rfl⟩
  · exact hNil
  · rw [List.concat_eq_append, ← List.cons_append, ← List.append_assoc] at hLog
    obtain ⟨-, hLast⟩ := List.append_inj' hLog rfl
    have hKind := hNone last (by simp)
    rw [← List.singleton_inj.mp hLast] at hKind
    exact nomatch hKind

/-- One event more in the generation. -/
theorem Current.snoc (h : Current log current) (hKind : event.isConnected = false) :
    Current (log ++ [event]) (current ++ [event]) := by
  obtain ⟨earlier, generation, rfl, hNone⟩ := h
  refine ⟨earlier, generation, by rw [List.append_assoc, List.cons_append], ?_⟩
  intro e hMem
  rcases List.mem_append.mp hMem with hOld | hNew
  · exact hNone e hOld
  · exact List.mem_singleton.mp hNew ▸ hKind

/-- The event before is in the generation too. -/
theorem Current.of_snoc (hKind : event.isConnected = false) (h : Current (log ++ [event]) current) :
    ∃ before, Current log before ∧ current = before ++ [event] := by
  obtain ⟨earlier, generation, hLog, hNone⟩ := h
  rcases List.eq_nil_or_concat current with rfl | ⟨front, last, rfl⟩
  · obtain ⟨-, hLast⟩ := List.append_inj' hLog rfl
    rw [List.singleton_inj.mp hLast] at hKind
    exact nomatch hKind
  · rw [List.concat_eq_append, ← List.cons_append, ← List.append_assoc] at hLog
    obtain ⟨rfl, hLast⟩ := List.append_inj' hLog rfl
    rw [List.concat_eq_append, List.singleton_inj.mp hLast]
    refine ⟨front, ⟨earlier, generation, rfl, fun e hMem => hNone e ?_⟩, rfl⟩
    rw [List.concat_eq_append]
    exact List.mem_append_left _ hMem

/-- The bytes of one event more. -/
theorem receivedBytes_snoc (events : List ConnectionEvent) (event : ConnectionEvent) :
    receivedBytes (events ++ [event]) = receivedBytes events ++ event.bytes := by
  rw [receivedBytes, List.flatMap_append, List.flatMap_singleton]
  rfl

/-- Only a connect counts as one. -/
theorem connects_snoc (hKind : event.isConnected = false) :
    connects (log ++ [event]) = connects log := by
  rw [connects, List.countP_append, List.countP_singleton, hKind]
  rfl

/-- One connect more. -/
theorem connects_connected (generation : UInt64) :
    connects (log ++ [.connected generation]) = connects log + 1 := by
  rw [connects, List.countP_append]
  rfl

/-- What is installed after one event more. -/
theorem installedCrypto_snoc (events : List ConnectionEvent) (event : ConnectionEvent) :
    installedCrypto (events ++ [event]) =
      match event with
      | .installed crypto => crypto
      | _ => installedCrypto events := by
  unfold installedCrypto
  rw [List.foldl_append]
  cases event with
  | installed crypto => rfl
  | _ => rfl

/-- Payloads within the limit. -/
theorem withinLimit_append {front back : List Bytes} (hFront : WithinLimit front)
    (hBack : WithinLimit back) : WithinLimit (front ++ back) :=
  List.forall_mem_append.mpr ⟨hFront, hBack⟩

end Log

-- ---------------------------------------------------------------------------
-- The invariant
-- ---------------------------------------------------------------------------

namespace Session

variable {cipher : Cipher} {s : Session} {link : Link}

/-- The log explains the connection: its generation, its decoder, its session crypto. -/
structure Sound (cipher : Cipher) (s : Session) : Prop where
  generation : s.link.connection.generation = UInt64.ofNat (connects s.log)
  connected : s.link.connection.connected = true → ∃ current, Current s.log current
  stream : ∀ current, Current s.log current → ∃ frames, WithinLimit frames ∧
    receivedBytes current = frameStream frames ++ s.link.connection.decoder.buffer
  crypto : ∀ current, Current s.log current → ∀ c ∈ s.link.connection.crypto, InstalledIn current c
  events : ∀ before event after, s.log = before ++ event :: after → EventSound cipher before event

/-- One more event in the log. -/
theorem Sound.events_snoc (h : s.Sound cipher) {event : ConnectionEvent}
    (hEvent : EventSound cipher s.log event) :
    ∀ before e after, s.log ++ [event] = before ++ e :: after → EventSound cipher before e := by
  intro before e after hSplit
  rcases List.eq_nil_or_concat after with rfl | ⟨front, last, rfl⟩
  · obtain ⟨rfl, hLast⟩ := List.append_inj' hSplit rfl
    rw [← List.singleton_inj.mp hLast]
    exact hEvent
  · rw [List.concat_eq_append, ← List.cons_append, ← List.append_assoc] at hSplit
    obtain ⟨hLog, -⟩ := List.append_inj' hSplit rfl
    exact h.events before e front hLog

/-- A new generation. -/
theorem Sound.connect (h : s.Sound cipher)
    (hGeneration : link.connection.generation = s.link.connection.generation + 1)
    (hDecoder : link.connection.decoder = {}) (hCrypto : link.connection.crypto = none) :
    Sound cipher ⟨link, s.log ++ [.connected link.connection.generation]⟩ where
  generation := by
    show link.connection.generation = _
    rw [hGeneration, h.generation, connects_connected, UInt64.ofNat_add]
    rfl
  connected _ := ⟨[], current_connected _ _⟩
  stream current hCurrent := by
    obtain rfl := hCurrent.eq_nil
    refine ⟨[], nofun, ?_⟩
    show [] = [] ++ link.connection.decoder.buffer
    rw [hDecoder]
    rfl
  crypto current _ c hc := by
    rw [hCrypto] at hc
    exact nomatch hc
  events := by
    refine h.events_snoc ⟨?_, ?_⟩
    · rw [hGeneration, h.generation]
    · intro hFits
      rw [hGeneration, h.generation, UInt64.lt_iff_toNat_lt, UInt64.toNat_add, UInt64.toNat_ofNat',
        UInt64.toNat_one]
      omega

/-- A call that goes on with the generation, and adds an event to the log. -/
theorem Sound.record (h : s.Sound cipher) {event : ConnectionEvent}
    (hKind : event.isConnected = false)
    (hGeneration : link.connection.generation = s.link.connection.generation)
    (hConnected : link.connection.connected = s.link.connection.connected)
    (popped : List Bytes) (hLimit : WithinLimit popped)
    (hStream : s.link.connection.decoder.buffer ++ event.bytes =
      frameStream popped ++ link.connection.decoder.buffer)
    (hCrypto : ∀ current, Current s.log current → ∀ c ∈ link.connection.crypto,
      InstalledIn (current ++ [event]) c)
    (hEvent : EventSound cipher s.log event) :
    Sound cipher ⟨link, s.log ++ [event]⟩ where
  generation := by
    show link.connection.generation = _
    rw [hGeneration, h.generation, connects_snoc hKind]
  connected hOpen := by
    obtain ⟨current, hCurrent⟩ := h.connected (hConnected ▸ hOpen)
    exact ⟨current ++ [event], hCurrent.snoc hKind⟩
  stream current hCurrent := by
    obtain ⟨before, hBefore, rfl⟩ := hCurrent.of_snoc hKind
    obtain ⟨frames, hFrames, hBytes⟩ := h.stream before hBefore
    refine ⟨frames ++ popped, withinLimit_append hFrames hLimit, ?_⟩
    · rw [receivedBytes_snoc, hBytes, List.append_assoc, hStream, frameStream_append,
        List.append_assoc]
  crypto current hCurrent c hc := by
    obtain ⟨before, hBefore, rfl⟩ := hCurrent.of_snoc hKind
    exact hCrypto before hBefore c hc
  events := h.events_snoc hEvent

/-- A call that adds no event. -/
theorem Sound.relink (h : s.Sound cipher)
    (hGeneration : link.connection.generation = s.link.connection.generation)
    (hConnected : link.connection.connected = true → s.link.connection.connected = true)
    (hDecoder : link.connection.decoder = s.link.connection.decoder)
    (hCrypto : Moved s.link.connection.crypto link.connection.crypto) :
    Sound cipher ⟨link, s.log⟩ where
  generation := hGeneration.trans h.generation
  connected hOpen := h.connected (hConnected hOpen)
  stream current hCurrent := by
    show ∃ frames, _ ∧ _ = _ ++ link.connection.decoder.buffer
    rw [hDecoder]
    exact h.stream current hCurrent
  crypto current hCurrent c hc := by
    obtain ⟨old, hOld, hMoved⟩ := hCrypto c hc
    obtain ⟨installed, hInstalled, hUsed⟩ := h.crypto current hCurrent old hOld
    exact ⟨installed, hInstalled, hUsed.trans hMoved⟩
  events := h.events

/-- What is installed stays what it is, as long as nothing else is installed. -/
theorem Sound.moved (h : s.Sound cipher) (event : ConnectionEvent)
    (hOther : ∀ crypto, event ≠ .installed crypto) {crypto : Option SessionCrypto}
    (hMoved : Moved s.link.connection.crypto crypto) (current : List ConnectionEvent)
    (hCurrent : Current s.log current) : ∀ c ∈ crypto, InstalledIn (current ++ [event]) c := by
  intro c hc
  obtain ⟨old, hOld, hUsed⟩ := hMoved c hc
  obtain ⟨installed, hInstalled, hBefore⟩ := h.crypto current hCurrent old hOld
  refine ⟨installed, ?_, hBefore.trans hUsed⟩
  rw [installedCrypto_snoc]
  cases event with
  | installed crypto => exact absurd rfl (hOther crypto)
  | _ => exact hInstalled

/-- `Connect`: it succeeds and begins a generation, or leaves the connection closed. -/
theorem Sound.callConnect (h : s.Sound cipher) (host : String) :
    (s.call cipher (.connect host)).Sound cipher := by
  have hRun := Link.hoare_connect_closed host s.link.connection s.link rfl
  cases hConnect : s.link.connect host with
  | ok _ link =>
    simp only [Session.call, hConnect]
    rw [hConnect] at hRun
    obtain ⟨hGeneration, -, hDecoder, hCrypto⟩ := hRun
    exact h.connect hGeneration hDecoder hCrypto
  | error e link =>
    simp only [Session.call, hConnect]
    rw [hConnect] at hRun
    have hSame : link.connection = s.link.connection := hRun
    refine h.relink ?_ ?_ ?_ ?_
    · rw [hSame]
    · rw [hSame]
      exact id
    · rw [hSame]
    · rw [hSame]
      exact .refl _

/-- `Disconnect`. -/
theorem Sound.callDisconnect (h : s.Sound cipher) : (s.call cipher .disconnect).Sound cipher :=
  h.relink rfl nofun rfl nofun

/-- `SendMarshal`, returned or thrown. -/
theorem wrote_sendMarshal (cipher : Cipher) (value : Marshal.Value) (l : Link) :
    Link.Wrote value l (finalState (Link.sendMarshal cipher value l)) := by
  have hRun := Link.hoare_sendMarshal_wrote cipher value l l rfl
  cases hSend : Link.sendMarshal cipher value l with
  | ok _ link =>
    rw [hSend] at hRun
    exact hRun
  | error _ link =>
    rw [hSend] at hRun
    exact hRun

/-- `SendMarshal`: what it writes goes through the session crypto of the generation. -/
theorem Sound.callSendMarshal (h : s.Sound cipher) (value : Marshal.Value) :
    (s.call cipher (.sendMarshal value)).Sound cipher := by
  have hWrote := wrote_sendMarshal cipher value s.link
  show Sound cipher ⟨finalState (Link.sendMarshal cipher value s.link),
    s.log ++ (s.link.writtenBy (finalState (Link.sendMarshal cipher value s.link))).map .sent⟩
  generalize finalState (Link.sendMarshal cipher value s.link) = link at hWrote
  unfold Link.writtenBy
  rcases hWrote.wire with hSame | ⟨hConnected, written, hMore⟩
  · rw [hSame, List.drop_length, List.map_nil, List.append_nil]
    exact h.relink hWrote.generation (fun hOpen => hWrote.connected ▸ hOpen) hWrote.decoder
      hWrote.crypto
  · rw [hMore, List.drop_left]
    obtain ⟨current, hCurrent⟩ := h.connected hConnected
    refine h.record rfl hWrote.generation hWrote.connected [] nofun ?_
      (h.moved (.sent _) nofun hWrote.crypto) ⟨current, hCurrent, h.crypto current hCurrent⟩
    rw [hWrote.decoder]
    exact List.append_nil _

/-- The answers that a call took are those that are gone. -/
theorem takenBy_of_append {l : Link} {taken : List Received}
    (h : l.network.receives = taken ++ link.network.receives) : l.takenBy link = taken := by
  unfold Link.takenBy
  rw [h, List.length_append, Nat.add_sub_cancel, List.take_left]

/-- The bytes that a call of `ReceiveMarshal` has received go into the log. -/
theorem Sound.recordReceived (h : s.Sound cipher) {popped : Option Bytes}
    (hTook : s.link.Took popped link) :
    Sound cipher ⟨link, s.log ++ [.received (deliveredBytes (s.link.takenBy link))]⟩ := by
  obtain ⟨taken, hTaken, hStream⟩ := hTook.stream
  refine h.record rfl hTook.generation hTook.connected _ hTook.limit ?_
    (h.moved (.received _) nofun hTook.crypto) trivial
  rw [takenBy_of_append hTaken]
  exact hStream

/-- `ReceiveMarshal`: what it returns is in the bytes of the generation. -/
theorem Sound.callReceiveMarshal (h : s.Sound cipher) :
    (s.call cipher .receiveMarshal).Sound cipher := by
  have hRun := Link.hoare_receiveMarshal_took cipher s.link s.link rfl
  cases hReceive : Link.receiveMarshal cipher s.link with
  | error e link =>
    simp only [Session.call, hReceive]
    rw [hReceive] at hRun
    obtain ⟨popped, hTook⟩ := hRun
    exact h.recordReceived hTook
  | ok value link =>
    simp only [Session.call, hReceive]
    rw [hReceive] at hRun
    obtain ⟨hConnected, payload, hTook, hOpens⟩ := hRun
    have hReceived := h.recordReceived hTook
    obtain ⟨taken, hTaken, hStream⟩ := hTook.stream
    obtain ⟨current, hCurrent⟩ := h.connected hConnected
    obtain ⟨frames, hLimit, hBytes⟩ := h.stream current hCurrent
    have hEvent : EventSound cipher (s.log ++ [.received (deliveredBytes (s.link.takenBy link))])
        (.returned value s.link.connection.crypto) := by
      refine ⟨_, hCurrent.snoc rfl,
        ⟨frames, payload, link.connection.decoder.buffer, ?_, ?_, hOpens⟩,
        h.moved (.received _) nofun (.refl _) current hCurrent⟩
      · exact withinLimit_append hLimit hTook.limit
      · rw [receivedBytes_snoc, hBytes, takenBy_of_append hTaken, List.append_assoc,
          frameStream_append, List.append_assoc]
        exact congrArg _ hStream
    have hReturned := hReceived.record rfl rfl rfl [] nofun (List.append_nil _)
      (hReceived.moved (.returned value s.link.connection.crypto) nofun (.refl _)) hEvent
    rw [List.append_assoc] at hReturned
    exact hReturned

/-- `SetSessionCrypto`. -/
theorem Sound.callSetSessionCrypto (h : s.Sound cipher) (crypto : Option SessionCrypto) :
    (s.call cipher (.setSessionCrypto crypto)).Sound cipher := by
  show Sound cipher ⟨s.link.replaceCrypto crypto, s.log ++ [.installed crypto]⟩
  rw [Link.replaceCrypto_eq]
  refine h.record rfl rfl rfl [] nofun (List.append_nil _) ?_ trivial
  intro current _ c hc
  refine ⟨c, ?_, .refl c⟩
  rw [installedCrypto_snoc]
  exact hc

/-- Any call. -/
theorem Sound.call (h : s.Sound cipher) : ∀ call, (s.call cipher call).Sound cipher
  | .connect host => h.callConnect host
  | .disconnect => h.callDisconnect
  | .sendMarshal value => h.callSendMarshal value
  | .receiveMarshal => h.callReceiveMarshal
  | .setSessionCrypto crypto => h.callSetSessionCrypto crypto

/-- Any calls. -/
theorem Sound.runCalls : ∀ (calls : List ConnectionCall) {s : Session}, s.Sound cipher →
    (s.runCalls cipher calls).Sound cipher
  | [], _, h => h
  | call :: calls, _, h => Sound.runCalls calls (h.call call)

/-- Before the first connect there is no generation. -/
theorem no_current_nil {current : List ConnectionEvent} : ¬Current [] current := by
  rintro ⟨earlier, generation, hNil, -⟩
  exact absurd hNil.symm (List.append_ne_nil_of_right_ne_nil _ (List.cons_ne_nil _ _))

/-- A new connection. -/
theorem sound_start (network : Outside) : (start network).Sound cipher where
  generation := rfl
  connected := nofun
  stream _ hCurrent := absurd hCurrent no_current_nil
  crypto _ hCurrent := absurd hCurrent no_current_nil
  events _ _ _ hNil :=
    absurd hNil.symm (List.append_ne_nil_of_right_ne_nil _ (List.cons_ne_nil _ _))

/-- The call is a `Connect`, and it will succeed. -/
def Connects (s : Session) (call : ConnectionCall) : Prop :=
  ∃ host link, call = .connect host ∧ s.link.connect host = .ok () link

/-- A `Connect` that succeeds adds one to the generation, and no other call changes it. -/
theorem generation_call (cipher : Cipher) (s : Session) (call : ConnectionCall) :
    (s.Connects call →
      (s.call cipher call).link.connection.generation = s.link.connection.generation + 1) ∧
    (¬s.Connects call →
      (s.call cipher call).link.connection.generation = s.link.connection.generation) := by
  cases call with
  | connect host =>
    have hRun := Link.hoare_connect_closed host s.link.connection s.link rfl
    cases hConnect : s.link.connect host with
    | ok _ link =>
      simp only [Session.call, hConnect]
      rw [hConnect] at hRun
      exact ⟨fun _ => hRun.1, fun hNo => absurd ⟨host, link, rfl, hConnect⟩ hNo⟩
    | error e link =>
      simp only [Session.call, hConnect]
      rw [hConnect] at hRun
      refine ⟨?_, fun _ => congrArg Connection.generation hRun⟩
      rintro ⟨host', link', hCall, hOk⟩
      obtain rfl := ConnectionCall.connect.inj hCall
      rw [hConnect] at hOk
      exact nomatch hOk
  | disconnect => exact ⟨fun ⟨_, _, hNo, _⟩ => (nomatch hNo), fun _ => rfl⟩
  | sendMarshal value =>
    exact ⟨fun ⟨_, _, hNo, _⟩ => (nomatch hNo),
      fun _ => (wrote_sendMarshal cipher value s.link).generation⟩
  | receiveMarshal =>
    refine ⟨fun ⟨_, _, hNo, _⟩ => (nomatch hNo), fun _ => ?_⟩
    have hRun := Link.hoare_receiveMarshal_took cipher s.link s.link rfl
    cases hReceive : Link.receiveMarshal cipher s.link with
    | ok value link =>
      simp only [Session.call, hReceive]
      rw [hReceive] at hRun
      obtain ⟨-, payload, hTook, -⟩ := hRun
      exact hTook.generation
    | error e link =>
      simp only [Session.call, hReceive]
      rw [hReceive] at hRun
      obtain ⟨popped, hTook⟩ := hRun
      exact hTook.generation
  | setSessionCrypto crypto =>
    refine ⟨fun ⟨_, _, hNo, _⟩ => (nomatch hNo), fun _ => ?_⟩
    show (s.link.replaceCrypto crypto).connection.generation = _
    rw [Link.replaceCrypto_eq]

/-- In every state that a run reaches, a `Connect` that succeeds adds one to the generation,
modulo `2 ^ 64`, and no other call changes it; the generation is the number of the `Connect`s
that have succeeded. Every event of the run is sound: a `Connect` has made the generation
larger as long as it can, a value that was returned was decoded from a frame of what had been
received since the last `Connect`, and the session crypto of what was returned or sent had
been installed since then, as is the one that an open connection has. -/
theorem events_of_run (cipher : Cipher) (network : Outside) (calls : List ConnectionCall) :
    (∀ call,
      (((start network).runCalls cipher calls).Connects call →
        (((start network).runCalls cipher calls).call cipher call).link.connection.generation =
          ((start network).runCalls cipher calls).link.connection.generation + 1) ∧
      (¬((start network).runCalls cipher calls).Connects call →
        (((start network).runCalls cipher calls).call cipher call).link.connection.generation =
          ((start network).runCalls cipher calls).link.connection.generation)) ∧
    ((start network).runCalls cipher calls).link.connection.generation =
      UInt64.ofNat (connects ((start network).runCalls cipher calls).log) ∧
    (((start network).runCalls cipher calls).link.connection.connected = true →
      ∃ current, Current ((start network).runCalls cipher calls).log current ∧
        ∀ c ∈ ((start network).runCalls cipher calls).link.connection.crypto, InstalledIn current c) ∧
    ∀ before event after, ((start network).runCalls cipher calls).log = before ++ event :: after →
      EventSound cipher before event := by
  have hSound : ((start network).runCalls cipher calls).Sound cipher :=
    Sound.runCalls calls (sound_start network)
  refine ⟨generation_call cipher _, hSound.generation, ?_, hSound.events⟩
  intro hOpen
  obtain ⟨current, hCurrent⟩ := hSound.connected hOpen
  exact ⟨current, hCurrent, hSound.crypto current hCurrent⟩

-- ---------------------------------------------------------------------------
-- Beyond the last generation
-- ---------------------------------------------------------------------------

/-- A loopback server that accepts `n` connections. -/
def accepting (n : Nat) : Outside where
  lookups := List.replicate n (some [.inet 0x7f000001])
  sockets := List.replicate n (some 1)
  connects := List.replicate n true

/-- `n` connections, one after the other. -/
def reconnects : Nat → List ConnectionCall
  | 0 => []
  | n + 1 => .connect "localhost" :: .disconnect :: reconnects n

/-- The next connection succeeds. -/
theorem connect_accepting {l : Link} {n : Nat} (hClosed : l.connection.connected = false)
    (hNetwork : l.network = accepting (n + 1)) :
    ∃ link, l.connect "localhost" = .ok () link ∧ link.network = accepting n ∧
      link.connection.generation = l.connection.generation + 1 := by
  obtain ⟨⟨generation, connected, crypto, decoder, socket⟩, peer, network, wire⟩ := l
  obtain rfl : connected = false := hClosed
  obtain rfl : network = accepting (n + 1) := hNetwork
  exact ⟨_, rfl, rfl, rfl⟩

/-- As many connects as the outside accepts. -/
theorem runCalls_reconnects (cipher : Cipher) (k : Nat) : ∀ (n : Nat) (s : Session),
    s.link.connection.connected = false → s.link.network = accepting (n + k) →
    (s.runCalls cipher (reconnects n)).link.connection.connected = false ∧
    (s.runCalls cipher (reconnects n)).link.network = accepting k ∧
    (s.runCalls cipher (reconnects n)).link.connection.generation =
      s.link.connection.generation + UInt64.ofNat n
  | 0, s, hClosed, hNetwork => ⟨hClosed, (Nat.zero_add k) ▸ hNetwork, (UInt64.add_zero _).symm⟩
  | n + 1, s, hClosed, hNetwork => by
    rw [Nat.add_right_comm] at hNetwork
    obtain ⟨link, hConnect, hRest, hGeneration⟩ := connect_accepting hClosed hNetwork
    have hRound : (s.call cipher (.connect "localhost")).link = link := by
      simp only [Session.call, hConnect]
    obtain ⟨hClosed', hNetwork', hGeneration'⟩ := runCalls_reconnects cipher k n
      ((s.call cipher (.connect "localhost")).call cipher .disconnect) rfl (by
        show (Link.disconnect _).network = _
        rw [hRound]
        exact hRest)
    refine ⟨hClosed', hNetwork', hGeneration'.trans ?_⟩
    show (Link.disconnect _).connection.generation + _ = _
    rw [hRound]
    show link.connection.generation + UInt64.ofNat n = _
    rw [hGeneration, UInt64.add_assoc, UInt64.add_comm 1, UInt64.ofNat_add]
    rfl

/-- After as many connections as there are generations but one, the next `Connect` succeeds and
makes the generation smaller. -/
theorem generation_wraps : ∃ link,
    ((start (accepting (2 ^ 64 - 1 + 1))).runCalls plainCipher (reconnects (2 ^ 64 - 1))).link.connect
      "localhost" = .ok () link ∧
    ¬((start (accepting (2 ^ 64 - 1 + 1))).runCalls plainCipher
      (reconnects (2 ^ 64 - 1))).link.connection.generation < link.connection.generation := by
  obtain ⟨hClosed, hNetwork, hGeneration⟩ := runCalls_reconnects plainCipher 1
    (2 ^ 64 - 1) (start (accepting (2 ^ 64 - 1 + 1))) rfl rfl
  obtain ⟨link, hConnect, -, hNext⟩ := connect_accepting hClosed hNetwork
  refine ⟨link, hConnect, ?_⟩
  rw [hNext, hGeneration]
  decide

end Session

end Ithax.Network
