import Ithax.Network.Duplex
import Ithax.Network.FrameBuffer
import Ithax.Network.LinkCalls
import Ithax.Network.PacketGrammar
import Ithax.Network.SessionSteps

/-!
# Malformed input

What `Client::Receive` cannot make sense of ends in an exception of one of five layers.
None of them, and nothing above them, closes the connection. `RejectedInput` says which
bytes these are without a word about the calls: what is buffered and what the next calls
of `recv` deliver.

OpenSSL is taken to work, so that what is undecryptable is so because of its bytes.

## Results

* `throws_receive_iff`        — `Receive` throws because of the input exactly if it is one
  of these.
* `keeps_open_receive`        — it never closes the connection.
* `closes_on_malformed_iff`   — the documented policy holds of no input that it speaks of.
-/

namespace Ithax.Network

open Ithax.Lib Ithax.Marshal FrameDecoder

-- ---------------------------------------------------------------------------
-- The front of a stream
-- ---------------------------------------------------------------------------

/-- The length that a stream declares for its first frame. -/
def declaredLength (stream : Bytes) : Nat := leNat (stream.take FRAME_LENGTH_PREFIX_BYTES)

/-- The first frame may still come. -/
def Unfinished (stream : Bytes) : Prop :=
  stream.length < FRAME_LENGTH_PREFIX_BYTES ∨
    declaredLength stream ≤ MAX_FRAME_PAYLOAD_BYTES ∧
      stream.length < FRAME_LENGTH_PREFIX_BYTES + declaredLength stream

/-- The first frame is beyond the limit. -/
def Oversized (stream : Bytes) : Prop :=
  FRAME_LENGTH_PREFIX_BYTES ≤ stream.length ∧ MAX_FRAME_PAYLOAD_BYTES < declaredLength stream

/-- The first frame is there. -/
def Framed (stream payload tail : Bytes) : Prop :=
  payload.length ≤ MAX_FRAME_PAYLOAD_BYTES ∧ stream = frameBytes payload ++ tail

/-- One of the three. -/
theorem stream_cases (stream : Bytes) :
    Unfinished stream ∨ Oversized stream ∨ ∃ payload tail, Framed stream payload tail := by
  by_cases hPrefix : stream.length < FRAME_LENGTH_PREFIX_BYTES
  · exact Or.inl (Or.inl hPrefix)
  by_cases hLong : MAX_FRAME_PAYLOAD_BYTES < declaredLength stream
  · exact Or.inr (Or.inl ⟨Nat.not_lt.mp hPrefix, hLong⟩)
  by_cases hShort : stream.length < FRAME_LENGTH_PREFIX_BYTES + declaredLength stream
  · exact Or.inl (Or.inr ⟨Nat.not_lt.mp hLong, hShort⟩)
  · obtain ⟨hLength, hSplit⟩ :=
      frameBytes_append_drop (Nat.not_lt.mp hPrefix) rfl (Nat.not_lt.mp hShort)
    refine Or.inr (Or.inr ⟨_, _, ?_, hSplit.symm⟩)
    rw [hLength]
    exact Nat.not_lt.mp hLong

variable {d : FrameDecoder}

/-- The decoder waits for more. -/
theorem tryPopFrame_of_unfinished (h : Unfinished d.buffer) : tryPopFrame d = .ok none d := by
  rw [tryPopFrame]
  by_cases hPrefix : d.buffer.length < FRAME_LENGTH_PREFIX_BYTES
  · rw [if_pos hPrefix]
  · obtain ⟨hLimit, hShort⟩ := h.resolve_left hPrefix
    rw [if_neg hPrefix]
    simp only [declaredLength] at hLimit hShort
    simp only
    rw [if_neg (Nat.not_lt.mpr hLimit), if_pos hShort]

/-- The decoder throws, and keeps the bytes. -/
theorem tryPopFrame_of_oversized (h : Oversized d.buffer) :
    tryPopFrame d = .error (.tooLarge "frame length exceeds the size limit") d := by
  rw [tryPopFrame, if_neg (Nat.not_lt.mpr h.1)]
  simp only
  exact if_pos h.2

/-- The decoder gives the payload. -/
theorem tryPopFrame_of_framed {payload tail : Bytes} (h : Framed d.buffer payload tail) :
    tryPopFrame d = .ok (some payload) ⟨tail⟩ := by
  obtain ⟨hLimit, hSplit⟩ := h
  have hFull : FRAME_LENGTH_PREFIX_BYTES + payload.length ≤ d.buffer.length := by
    rw [hSplit, List.length_append, length_frameBytes]
    omega
  have hFront : d.buffer <+: frameBytes payload ++ tail := ⟨[], by rw [List.append_nil, hSplit]⟩
  obtain ⟨tail', hSplit', -, hPop⟩ := tryPopFrame_complete hLimit hFront hFull
  rw [hPop, List.append_cancel_left (hSplit'.symm.trans hSplit)]

-- ---------------------------------------------------------------------------
-- What arrives
-- ---------------------------------------------------------------------------

/-- `ReceiveMarshal` looks at `stream` after the deliveries `taken` on top of `buffer`: each
found the frame unfinished and had room. -/
inductive Arrives : Bytes → List Received → Bytes → Prop where
  | now (buffer : Bytes) : Arrives buffer [] buffer
  | more {buffer stream : Bytes} {received : Received} {taken : List Received}
      (hWaits : Unfinished buffer) (hData : received.bytes ≠ [])
      (hRoom : buffer.length + received.bytes.length ≤ MAX_BUFFERED_BYTES)
      (hRest : Arrives (buffer ++ received.bytes) taken stream) :
      Arrives buffer (received :: taken) stream

/-- What stops the loop before a frame. -/
inductive Stops (stream : Bytes) : List Received → Prop where
  | exhausted : Stops stream []
  | failed {received : Received} (rest : List Received) (hEmpty : received.bytes = []) :
      Stops stream (received :: rest)
  | overrun {received : Received} (rest : List Received) (hData : received.bytes ≠ [])
      (hLong : MAX_BUFFERED_BYTES < stream.length + received.bytes.length) :
      Stops stream (received :: rest)

/-- What the receive loop comes to. -/
theorem arrives_end (receives : List Received) (buffer : Bytes) :
    ∃ taken rest stream, receives = taken ++ rest ∧ Arrives buffer taken stream ∧
      (Oversized stream ∨ (∃ payload tail, Framed stream payload tail) ∨
        Unfinished stream ∧ Stops stream rest) := by
  induction receives generalizing buffer with
  | nil =>
    refine ⟨[], [], buffer, rfl, .now buffer, ?_⟩
    rcases stream_cases buffer with hWaits | hLong | hFramed
    · exact Or.inr (Or.inr ⟨hWaits, .exhausted⟩)
    · exact Or.inl hLong
    · exact Or.inr (Or.inl hFramed)
  | cons received receives ih =>
    rcases stream_cases buffer with hWaits | hLong | hFramed
    · by_cases hEmpty : received.bytes = []
      · exact ⟨[], _, buffer, rfl, .now buffer, Or.inr (Or.inr ⟨hWaits, .failed _ hEmpty⟩)⟩
      by_cases hRoom : buffer.length + received.bytes.length ≤ MAX_BUFFERED_BYTES
      · obtain ⟨taken, rest, stream, rfl, hArrives, hEnd⟩ := ih (buffer ++ received.bytes)
        exact ⟨received :: taken, rest, stream, rfl, .more hWaits hEmpty hRoom hArrives, hEnd⟩
      · exact ⟨[], _, buffer, rfl, .now buffer,
          Or.inr (Or.inr ⟨hWaits, .overrun _ hEmpty (Nat.not_le.mp hRoom)⟩)⟩
    · exact ⟨[], _, buffer, rfl, .now buffer, Or.inl hLong⟩
    · exact ⟨[], _, buffer, rfl, .now buffer, Or.inr (Or.inl hFramed)⟩

namespace Link

variable {l : Link} {cipher : Cipher}

/-- The link with another buffer and other answers of `recv` to come. -/
def withInput (l : Link) (buffer : Bytes) (receives : List Received) : Link :=
  { l with
    connection := { l.connection with decoder := ⟨buffer⟩ }
    network := { l.network with receives } }

/-- It throws. -/
theorem receiveFrame_of_oversized (h : Oversized l.connection.decoder.buffer)
    (receives : List Received) : ∃ e l', receiveFrame receives l = .error (.frame e) l' := by
  have hPop : onDecoder tryPopFrame l = _ := zoom_of_error (tryPopFrame_of_oversized h)
  rw [receiveFrame.eq_def]
  exact ⟨_, _, bind_of_error hPop⟩

/-- It returns the payload. -/
theorem receiveFrame_of_framed {payload tail : Bytes}
    (h : Framed l.connection.decoder.buffer payload tail) (receives : List Received) :
    receiveFrame receives l = .ok payload (l.withInput tail l.network.receives) := by
  have hPop : onDecoder tryPopFrame l = _ := zoom_of_ok (tryPopFrame_of_framed h)
  rw [receiveFrame.eq_def, bind_of_ok hPop]
  rfl

/-- The loop goes on with what a `recv` delivers. -/
theorem receiveFrame_cons (hWaits : Unfinished l.connection.decoder.buffer) {received : Received}
    (hData : received.bytes ≠ [])
    (hRoom : l.connection.decoder.buffer.length + received.bytes.length ≤ MAX_BUFFERED_BYTES)
    (rest : List Received) :
    receiveFrame (received :: rest) l =
      receiveFrame rest (l.withInput (l.connection.decoder.buffer ++ received.bytes) rest) := by
  have hPop : onDecoder tryPopFrame l = _ := zoom_of_ok (tryPopFrame_of_unfinished hWaits)
  rw [receiveFrame.eq_def, bind_of_ok hPop]
  rcases received with ⟨- | ⟨b, bytes⟩⟩ | - | -
  · exact absurd rfl hData
  · have hPush : onDecoder (push ((b :: bytes).take kRecvChunkBytes))
        { l with network := { l.network with receives := rest } } = _ :=
      zoom_of_ok (push_of_le hRoom)
    show (setReceives rest >>= fun _ => _) l = _
    rw [bind_of_ok (show setReceives rest l = .ok () _ from rfl), bind_of_ok hPush]
    rfl
  · exact absurd rfl hData
  · exact absurd rfl hData

/-- A chunk that does not fit is thrown at. -/
theorem receiveFrame_of_overrun (hWaits : Unfinished l.connection.decoder.buffer)
    {received : Received} (hData : received.bytes ≠ [])
    (hLong : MAX_BUFFERED_BYTES < l.connection.decoder.buffer.length + received.bytes.length)
    (rest : List Received) :
    ∃ e l', receiveFrame (received :: rest) l = .error (.frame e) l' := by
  have hPop : onDecoder tryPopFrame l = _ := zoom_of_ok (tryPopFrame_of_unfinished hWaits)
  rw [receiveFrame.eq_def, bind_of_ok hPop]
  rcases received with ⟨- | ⟨b, bytes⟩⟩ | - | -
  · exact absurd rfl hData
  · have hPush : onDecoder (push ((b :: bytes).take kRecvChunkBytes))
        { l with network := { l.network with receives := rest } } = _ :=
      zoom_of_error (push_of_gt hLong)
    show ∃ e l', (setReceives rest >>= fun _ => _) l = .error (.frame e) l'
    rw [bind_of_ok (show setReceives rest l = .ok () _ from rfl)]
    exact ⟨_, _, bind_of_error hPush⟩
  · exact absurd rfl hData
  · exact absurd rfl hData

/-- The loop after the deliveries `taken`. -/
theorem receiveFrame_of_arrives {buffer stream : Bytes} {taken rest : List Received}
    (h : Arrives buffer taken stream) (hBuffer : l.connection.decoder.buffer = buffer)
    (hReceives : l.network.receives = taken ++ rest) :
    receiveFrame l.network.receives l = receiveFrame rest (l.withInput stream rest) := by
  induction h generalizing l with
  | now buffer =>
    obtain rfl : l.network.receives = rest := hReceives
    rw [← hBuffer]
    rfl
  | @more buffer stream received taken hWaits hData hRoom hRest ih =>
    obtain rfl := hBuffer
    rw [hReceives, List.cons_append, receiveFrame_cons hWaits hData hRoom]
    exact ih (l := l.withInput _ _) rfl rfl

/-- Without a frame the loop ends in the exception of a lost connection, or in that of a full
buffer. -/
theorem receiveFrame_of_stops (hWaits : Unfinished l.connection.decoder.buffer)
    {receives : List Received} (h : Stops l.connection.decoder.buffer receives) :
    ∃ e l', receiveFrame receives l = .error e l' ∧
      ((∃ message, e = .timeout message) ∨ (∃ message, e = .closed message) ∨
        ∃ received rest, receives = received :: rest ∧ received.bytes ≠ [] ∧
          MAX_BUFFERED_BYTES < l.connection.decoder.buffer.length + received.bytes.length) := by
  have hPop : onDecoder tryPopFrame l = _ := zoom_of_ok (tryPopFrame_of_unfinished hWaits)
  cases h with
  | exhausted =>
    rw [receiveFrame.eq_def, bind_of_ok hPop]
    exact ⟨_, _, rfl, Or.inl ⟨_, rfl⟩⟩
  | @failed received rest hEmpty =>
    rw [receiveFrame.eq_def, bind_of_ok hPop]
    rcases received with ⟨- | ⟨b, bytes⟩⟩ | - | -
    · exact ⟨_, _, rfl, Or.inr (Or.inl ⟨_, rfl⟩)⟩
    · exact absurd hEmpty (by simp [Received.bytes, kRecvChunkBytes])
    · exact ⟨_, _, rfl, Or.inl ⟨_, rfl⟩⟩
    · exact ⟨_, _, rfl, Or.inr (Or.inl ⟨_, rfl⟩)⟩
  | @overrun received rest hData hLong =>
    obtain ⟨e, l', hRun⟩ := receiveFrame_of_overrun hWaits hData hLong rest
    exact ⟨_, l', hRun, Or.inr (Or.inr ⟨received, rest, rfl, hData, hLong⟩)⟩

end Link

-- ---------------------------------------------------------------------------
-- The input
-- ---------------------------------------------------------------------------

/-- What the session crypto makes of a payload, and what it is then. -/
def opened (cipher : Cipher) (crypto : Option SessionCrypto) (payload : Bytes) :
    Option (Bytes × Option SessionCrypto) :=
  match crypto with
  | none => some (payload, none)
  | some c =>
    match c.decrypt cipher none payload with
    | .ok plain next => some (plain, some next)
    | .error _ _ => none

/-- What the session crypto makes of an encoding. -/
def sealedBytes (cipher : Cipher) (crypto : Option SessionCrypto) (marshaled : Bytes) : Bytes :=
  match crypto with
  | none => marshaled
  | some c => cipher.encrypt c.key c.iv marshaled

/-- The payload holds the value. -/
def Holds (cipher : Cipher) (crypto : Option SessionCrypto) (payload : Bytes) (value : Value)
    (next : Option SessionCrypto) : Prop :=
  ∃ plain, opened cipher crypto payload = some (plain, next) ∧
    Marshal.decode plain true = .ok value

/-- The value has no encoding, or none that fits a frame. -/
def Unsendable (cipher : Cipher) (crypto : Option SessionCrypto) (value : Value) : Prop :=
  ∀ marshaled, encode value = .ok marshaled →
    MAX_FRAME_PAYLOAD_BYTES < (sealedBytes cipher crypto marshaled).length

/-- The payloads that a client cannot work off, with its session crypto, its generation and
whether it has a handler for call responses. -/
inductive RejectedPayload (cipher : Cipher) (crypto : Option SessionCrypto) (generation : UInt64)
    (handles : Bool) (payload : Bytes) : Prop where
  | undecryptable (h : opened cipher crypto payload = none)
  | unmarshaled {plain : Bytes} {next : Option SessionCrypto} {e : Stop MarshalError}
      (hOpened : opened cipher crypto payload = some (plain, next))
      (h : Marshal.decode plain true = .error e)
  | unformatted {value : Value} {next : Option SessionCrypto} {e : PacketFormatError}
      (hHolds : Holds cipher crypto payload value next)
      (h : Packet.decode value generation = .error e)
  /-- A ping whose answer cannot be sent. -/
  | pingReq {value : Value} {next : Option SessionCrypto} {packet : Packet}
      (hHolds : Holds cipher crypto payload value next)
      (hPacket : Packet.decode value generation = .ok packet) (hType : packet.type = .pingReq)
      (h : Unsendable cipher next (Client.pingRsp packet).encode)
  /-- A call response whose substream does not decode. -/
  | callRsp {value : Value} {next : Option SessionCrypto} {packet : Packet} {body : Bytes}
      {e : Stop MarshalError} (hHolds : Holds cipher crypto payload value next)
      (hPacket : Packet.decode value generation = .ok packet) (hType : packet.type = .callRsp)
      (hHandles : handles = true) (hBody : Client.callRspBody packet = some body)
      (h : Marshal.decode body true = .error e)

/-- The bytes that a client has buffered or is sent, and cannot work off. -/
inductive RejectedInput (cipher : Cipher) (c : Client) : Prop where
  | overrun {taken rest : List Received} {received : Received} {stream : Bytes}
      (hArrives : Arrives c.link.connection.decoder.buffer taken stream)
      (hReceives : c.link.network.receives = taken ++ received :: rest)
      (hWaits : Unfinished stream) (hData : received.bytes ≠ [])
      (hLong : MAX_BUFFERED_BYTES < stream.length + received.bytes.length)
  | oversized {taken rest : List Received} {stream : Bytes}
      (hArrives : Arrives c.link.connection.decoder.buffer taken stream)
      (hReceives : c.link.network.receives = taken ++ rest) (h : Oversized stream)
  | payload {taken rest : List Received} {stream payload tail : Bytes}
      (hArrives : Arrives c.link.connection.decoder.buffer taken stream)
      (hReceives : c.link.network.receives = taken ++ rest) (hFramed : Framed stream payload tail)
      (h : RejectedPayload cipher c.link.connection.crypto c.generation c.hasCallRspHandler payload)

/-- The exceptions that input can cause. -/
def NetworkError.OfInput : NetworkError → Prop
  | .frame _ | .crypto _ | .marshal _ | .packet _ => True
  | _ => False

-- ---------------------------------------------------------------------------
-- One payload
-- ---------------------------------------------------------------------------

namespace Link

variable {l : Link} {cipher : Cipher}

/-- `requireEstablished` lets it pass, and OpenSSL reports no failure. -/
structure Ready (l : Link) : Prop where
  connected : l.connection.connected = true
  socket : l.connection.socket ≠ 0
  reliable : ∀ fault ∈ l.network.faults, fault = none

/-- The connection is established. -/
theorem Ready.requireEstablished (h : l.Ready) : requireEstablished l = .ok () l :=
  requireEstablished_of_open h.connected h.socket

/-- The link after the answer to one `EVP` call. -/
def skipFault (l : Link) : Link :=
  { l with network := { l.network with faults := l.network.faults.tail } }

/-- No fault is drawn. -/
theorem Ready.nextFault (h : l.Ready) : nextFault l = .ok none l.skipFault := by
  unfold Link.nextFault draw skipFault
  cases hFaults : l.network.faults with
  | nil =>
    simp only [List.tail_nil]
    rw [← hFaults]
  | cons fault faults =>
    have hNone := h.reliable fault (hFaults ▸ List.mem_cons_self)
    simp only [hNone, List.tail_cons]

/-- A session crypto may have been used in between. -/
theorem Ready.withCrypto (h : l.Ready) (crypto : Option SessionCrypto) :
    ({ l.skipFault with connection := { l.connection with crypto } } : Link).Ready where
  connected := h.connected
  socket := h.socket
  reliable := fun fault hMem => h.reliable fault (List.mem_of_mem_tail hMem)

/-- The session crypto does its part. -/
theorem Ready.onCrypto_of_ok (h : l.Ready) {payload out : Bytes} {c next : SessionCrypto}
    {m : Option EvpFault → CryptoM Bytes} (hCrypto : l.connection.crypto = some c)
    (hRun : m none c = .ok out next) :
    onCrypto payload m l =
      .ok out { l.skipFault with connection := { l.connection with crypto := some next } } := by
  unfold onCrypto
  rw [bind_of_ok (get_run l), hCrypto]
  simp only
  rw [bind_of_ok h.nextFault]
  exact zoom_of_ok hRun

/-- The session crypto throws. -/
theorem Ready.onCrypto_of_error (h : l.Ready) {payload : Bytes} {c next : SessionCrypto}
    {e : SessionCryptoError} {m : Option EvpFault → CryptoM Bytes}
    (hCrypto : l.connection.crypto = some c) (hRun : m none c = .error e next) :
    ∃ l', onCrypto payload m l = .error (.crypto e) l' := by
  unfold onCrypto
  rw [bind_of_ok (get_run l), hCrypto]
  simp only
  rw [bind_of_ok h.nextFault]
  exact ⟨_, zoom_of_error hRun⟩

/-- Without a session crypto the payload stays as it is. -/
theorem onCrypto_of_none {payload : Bytes} {m : Option EvpFault → CryptoM Bytes}
    (hCrypto : l.connection.crypto = none) : onCrypto payload m l = .ok payload l := by
  unfold onCrypto
  rw [bind_of_ok (get_run l), hCrypto]
  rfl

/-- Since `l`, at most a fault was drawn and the session crypto used. -/
structure Ready.Leads (l l' : Link) (next : Option SessionCrypto) : Prop where
  ready : l'.Ready
  crypto : l'.connection.crypto = next
  generation : l'.connection.generation = l.connection.generation

/-- A payload that opens is decrypted. -/
theorem Ready.decrypt_of_opened (h : l.Ready) {payload plain : Bytes} {next : Option SessionCrypto}
    (hOpened : opened cipher l.connection.crypto payload = some (plain, next)) :
    ∃ l', onCrypto payload (fun fault => SessionCrypto.decrypt cipher fault payload) l =
      .ok plain l' ∧ Ready.Leads l l' next := by
  cases hCrypto : l.connection.crypto with
  | none =>
    rw [hCrypto] at hOpened
    obtain ⟨rfl, rfl⟩ := Prod.mk.inj (Option.some.inj hOpened)
    exact ⟨l, onCrypto_of_none hCrypto, h, hCrypto, rfl⟩
  | some c =>
    rw [hCrypto, opened] at hOpened
    rcases hRun : c.decrypt cipher none payload with ⟨out, c'⟩ | ⟨e, c'⟩
    · rw [hRun] at hOpened
      obtain ⟨rfl, rfl⟩ := Prod.mk.inj (Option.some.inj hOpened)
      exact ⟨_, h.onCrypto_of_ok hCrypto hRun, h.withCrypto _, rfl, rfl⟩
    · rw [hRun] at hOpened
      cases hOpened

/-- Any other is thrown at. -/
theorem Ready.decrypt_of_not_opened (h : l.Ready) {payload : Bytes}
    (hOpened : opened cipher l.connection.crypto payload = none) :
    ∃ e l', onCrypto payload (fun fault => SessionCrypto.decrypt cipher fault payload) l =
      .error (.crypto e) l' := by
  cases hCrypto : l.connection.crypto with
  | none =>
    rw [hCrypto] at hOpened
    cases hOpened
  | some c =>
    rw [hCrypto, opened] at hOpened
    rcases hRun : c.decrypt cipher none payload with ⟨out, c'⟩ | ⟨e, c'⟩
    · rw [hRun] at hOpened
      cases hOpened
    · obtain ⟨l', hError⟩ := h.onCrypto_of_error
        (m := fun fault => SessionCrypto.decrypt cipher fault payload) hCrypto hRun
      exact ⟨e, l', hError⟩

/-- Encrypting does not fail. -/
theorem Ready.encrypt (h : l.Ready) (marshaled : Bytes) :
    ∃ l', onCrypto marshaled (fun fault => SessionCrypto.encrypt cipher fault marshaled) l =
      .ok (sealedBytes cipher l.connection.crypto marshaled) l' := by
  cases hCrypto : l.connection.crypto with
  | none => exact ⟨l, onCrypto_of_none hCrypto⟩
  | some c => exact ⟨_, h.onCrypto_of_ok hCrypto rfl⟩

/-- `SendMarshal` throws because of its value exactly if it cannot be sent. -/
theorem Ready.throws_sendMarshal_iff (h : l.Ready) (value : Value) :
    Throws NetworkError.OfInput (sendMarshal cipher value) l ↔
      Unsendable cipher l.connection.crypto value := by
  unfold sendMarshal
  rw [throws_bind_of_ok h.requireEstablished,
    throws_bind_of_ok (get_run l)]
  cases hEncode : encode value with
  | error e =>
    rw [throws_bind_of_error (fromExcept_error NetworkError.marshal _ l)]
    refine iff_of_true trivial ?_
    intro marshaled hOk
    rw [hEncode] at hOk
    cases hOk
  | ok marshaled =>
    rw [throws_bind_of_ok (fromExcept_ok NetworkError.marshal _ l)]
    obtain ⟨l', hRun⟩ := @Ready.encrypt l cipher h marshaled
    rw [throws_bind_of_ok hRun]
    have hOnly : Unsendable cipher l.connection.crypto value ↔
        MAX_FRAME_PAYLOAD_BYTES < (sealedBytes cipher l.connection.crypto marshaled).length := by
      constructor
      · intro hUnsendable
        exact hUnsendable marshaled hEncode
      · intro hLong other hOther
        rw [hEncode] at hOther
        cases hOther
        exact hLong
    rw [hOnly]
    by_cases hLong :
        MAX_FRAME_PAYLOAD_BYTES < (sealedBytes cipher l.connection.crypto marshaled).length
    · rw [encodeFrame, if_pos hLong, throws_bind_of_error
        (fromExcept_error NetworkError.frame _ l')]
      exact iff_of_true trivial hLong
    · rw [encodeFrame, if_neg hLong, throws_bind_of_ok
        (fromExcept_ok NetworkError.frame _ l')]
      refine iff_of_false ?_ hLong
      rw [throws_bind_of_ok (get_run l')]
      rintro ⟨e, s', hError, hInput⟩
      rcases hLoop : sendLoop l'.network.sends
        (frameBytes (sealedBytes cipher l.connection.crypto marshaled)) with ⟨written, done, sends⟩
      rw [hLoop] at hError
      cases done with
      | true => cases hError
      | false =>
        cases hError
        exact hInput

/-- The part of `ReceiveMarshal` after the loop. -/
def openFrame (cipher : Cipher) (payload : Bytes) : LinkM Value := do
  let plain ← onCrypto payload fun fault => SessionCrypto.decrypt cipher fault payload
  fromExcept .marshal (Marshal.decode plain true)

/-- A payload that holds a value gives it. -/
theorem Ready.openFrame_of_holds (h : l.Ready) {payload : Bytes} {value : Value}
    {next : Option SessionCrypto} (hHolds : Holds cipher l.connection.crypto payload value next) :
    ∃ l', openFrame cipher payload l = .ok value l' ∧ Ready.Leads l l' next := by
  obtain ⟨plain, hOpened, hDecode⟩ := hHolds
  obtain ⟨l', hRun, hLeads⟩ := h.decrypt_of_opened hOpened
  refine ⟨l', ?_, hLeads⟩
  rw [openFrame, bind_of_ok hRun, hDecode]
  rfl

/-- A payload that does not open is a crypto error. -/
theorem Ready.openFrame_of_undecryptable (h : l.Ready) {payload : Bytes}
    (hOpened : opened cipher l.connection.crypto payload = none) :
    ∃ e l', openFrame cipher payload l = .error (.crypto e) l' := by
  obtain ⟨e, l', hRun⟩ := h.decrypt_of_not_opened hOpened
  exact ⟨e, l', bind_of_error hRun⟩

/-- A payload that does not decode is a marshal error. -/
theorem Ready.openFrame_of_unmarshaled (h : l.Ready) {payload plain : Bytes}
    {next : Option SessionCrypto} {e : Stop MarshalError}
    (hOpened : opened cipher l.connection.crypto payload = some (plain, next))
    (hDecode : Marshal.decode plain true = .error e) :
    ∃ l', openFrame cipher payload l = .error (.marshal e) l' := by
  obtain ⟨l', hRun, -⟩ := h.decrypt_of_opened hOpened
  refine ⟨l', ?_⟩
  rw [openFrame, bind_of_ok hRun, hDecode]
  rfl

/-- `ReceiveMarshal` when a frame arrives. -/
theorem Ready.receiveMarshal_of_framed (h : l.Ready) {taken rest : List Received}
    {stream payload tail : Bytes} (hArrives : Arrives l.connection.decoder.buffer taken stream)
    (hReceives : l.network.receives = taken ++ rest) (hFramed : Framed stream payload tail) :
    receiveMarshal cipher l = openFrame cipher payload (l.withInput tail rest) := by
  have hFrame : receiveFrame l.network.receives l = .ok payload (l.withInput tail rest) := by
    rw [receiveFrame_of_arrives hArrives rfl hReceives]
    exact receiveFrame_of_framed (l := l.withInput stream rest) hFramed rest
  rw [receiveMarshal, bind_of_ok h.requireEstablished,
    bind_of_ok (get_run l), bind_of_ok hFrame]
  rfl

/-- What the receive loop throws, `ReceiveMarshal` throws. -/
theorem Ready.receiveMarshal_of_error (h : l.Ready) {taken rest : List Received} {stream : Bytes}
    {e : NetworkError} {l' : Link} (hArrives : Arrives l.connection.decoder.buffer taken stream)
    (hReceives : l.network.receives = taken ++ rest)
    (hRun : receiveFrame rest (l.withInput stream rest) = .error e l') :
    receiveMarshal cipher l = .error e l' := by
  rw [← receiveFrame_of_arrives hArrives rfl hReceives] at hRun
  rw [receiveMarshal, bind_of_ok h.requireEstablished,
    bind_of_ok (get_run l), bind_of_error hRun]

end Link

-- ---------------------------------------------------------------------------
-- The client
-- ---------------------------------------------------------------------------

namespace Client

variable {cipher : Cipher} {c : Client}

/-- Exceptions of the connection are those of the client. -/
theorem throws_onLink_iff {α : Type} {m : LinkM α} {p : NetworkError → Prop} :
    Throws p (onLink m) c ↔ Throws p m c.link := by
  rcases hRun : m c.link with ⟨a, l⟩ | ⟨e, l⟩
  · exact iff_of_false (not_throws_of_ok (zoom_of_ok hRun)) (not_throws_of_ok hRun)
  · rw [throws_of_error_iff hRun, onLink, throws_of_error_iff (zoom_of_error hRun)]
    rfl

/-- The handler of call responses throws at a body that does not decode. -/
theorem throws_handleCallRsp_iff (packet : Packet) :
    Throws NetworkError.OfInput (handleCallRsp packet) c ↔
      c.hasCallRspHandler = true ∧ ∃ body e, callRspBody packet = some body ∧
        Marshal.decode body true = .error e := by
  unfold handleCallRsp
  rw [throws_bind_of_ok (get_run c)]
  cases hHandler : c.hasCallRspHandler with
  | false =>
    refine iff_of_false (not_throws_of_ok (a := ()) rfl) ?_
    rintro ⟨hTrue, -⟩
    cases hTrue
  | true =>
    simp only [if_true, true_and]
    unfold decodeCallRsp
    cases hBody : callRspBody packet with
    | none =>
      refine iff_of_false (not_throws_of_ok (a := ()) rfl) ?_
      rintro ⟨body, e, hSome, -⟩
      cases hSome
    | some body =>
      cases hDecode : Marshal.decode body true with
      | ok value =>
        simp only
        rw [hDecode]
        refine iff_of_false (not_throws_of_ok (a := ()) rfl) ?_
        rintro ⟨body', e, hSome, hError⟩
        cases hSome
        rw [hDecode] at hError
        cases hError
      | error e =>
        simp only
        rw [hDecode]
        exact iff_of_true ⟨_, _, rfl, trivial⟩ ⟨body, e, rfl, hDecode⟩

/-- What `HandleIncoming` throws at. -/
theorem throws_handleIncoming_iff (hReady : c.link.Ready) (value : Value) :
    Throws NetworkError.OfInput (handleIncoming cipher value) c ↔
      (∃ e, Packet.decode value c.generation = .error e) ∨
      ∃ packet, Packet.decode value c.generation = .ok packet ∧
        (packet.type = .pingReq ∧
            Unsendable cipher c.link.connection.crypto (pingRsp packet).encode ∨
          packet.type = .callRsp ∧ c.hasCallRspHandler = true ∧
            ∃ body e, callRspBody packet = some body ∧ Marshal.decode body true = .error e) := by
  unfold handleIncoming
  rw [throws_bind_of_ok (get_run c)]
  cases hPacket : Packet.decode value c.generation with
  | error e =>
    rw [throws_bind_of_error (fromExcept_error NetworkError.packet _ c)]
    exact iff_of_true trivial (Or.inl ⟨e, rfl⟩)
  | ok packet =>
    rw [throws_bind_of_ok (fromExcept_ok NetworkError.packet _ c)]
    simp only [reduceCtorEq, exists_false, false_or, Except.ok.injEq, exists_eq_left']
    have hPing : Throws NetworkError.OfInput (handlePingReq cipher packet) c ↔
        Unsendable cipher c.link.connection.crypto (pingRsp packet).encode := by
      rw [handlePingReq_eq]
      exact throws_onLink_iff.trans (hReady.throws_sendMarshal_iff _)
    split
    · rename_i hType
      rw [hPing, hType]
      simp
    · rename_i hType
      rw [throws_handleCallRsp_iff, hType]
      simp
    · rename_i hNotPing hNotRsp
      refine iff_of_false (not_throws_of_ok (a := ()) rfl) ?_
      rintro (⟨hType, -⟩ | ⟨hType, -⟩)
      · exact hNotPing hType
      · exact hNotRsp hType

/-- The part of `Receive` after the loop. -/
def workOff (cipher : Cipher) (payload : Bytes) : ClientM Value := do
  let value ← onLink (Link.openFrame cipher payload)
  handleIncoming cipher value
  return value

/-- A payload that holds a value. -/
theorem throws_workOff_of_holds (hReady : c.link.Ready) {payload : Bytes} {value : Value}
    {next : Option SessionCrypto}
    (hHolds : Holds cipher c.link.connection.crypto payload value next) :
    Throws NetworkError.OfInput (workOff cipher payload) c ↔
      (∃ e, Packet.decode value c.generation = .error e) ∨
      ∃ packet, Packet.decode value c.generation = .ok packet ∧
        (packet.type = .pingReq ∧ Unsendable cipher next (pingRsp packet).encode ∨
          packet.type = .callRsp ∧ c.hasCallRspHandler = true ∧
            ∃ body e, callRspBody packet = some body ∧ Marshal.decode body true = .error e) := by
  obtain ⟨l', hOpen, hLeads⟩ := hReady.openFrame_of_holds hHolds
  have hValue : onLink (Link.openFrame cipher payload) c = _ := zoom_of_ok hOpen
  have hHandle := @throws_handleIncoming_iff cipher { c with link := l' } hLeads.ready value
  have hGeneration : ({ c with link := l' } : Client).generation = c.generation := hLeads.generation
  rw [hGeneration, hLeads.crypto] at hHandle
  rw [workOff, throws_bind_of_ok hValue, ← hHandle]
  rcases hRun : handleIncoming cipher value { c with link := l' } with ⟨u, c'⟩ | ⟨e, c'⟩
  · rw [throws_bind_of_ok hRun]
    exact iff_of_false (not_throws_of_ok rfl) (not_throws_of_ok hRun)
  · rw [throws_bind_of_error hRun, throws_of_error_iff hRun]

/-- What the work on a payload throws at. -/
theorem throws_workOff_iff (hReady : c.link.Ready) (payload : Bytes) :
    Throws NetworkError.OfInput (workOff cipher payload) c ↔
      RejectedPayload cipher c.link.connection.crypto c.generation c.hasCallRspHandler payload := by
  constructor
  · intro hThrows
    rcases hOpened : opened cipher c.link.connection.crypto payload with - | ⟨plain, next⟩
    · exact .undecryptable hOpened
    cases hDecode : Marshal.decode plain true with
    | error e => exact .unmarshaled hOpened hDecode
    | ok value =>
      have hHolds : Holds cipher c.link.connection.crypto payload value next :=
        ⟨plain, hOpened, hDecode⟩
      rcases (throws_workOff_of_holds hReady hHolds).mp hThrows with
        ⟨e, hError⟩ | ⟨packet, hPacket, ⟨hType, hLost⟩ | ⟨hType, hHandles, body, e, hBody, hError⟩⟩
      · exact .unformatted hHolds hError
      · exact .pingReq hHolds hPacket hType hLost
      · exact .callRsp hHolds hPacket hType hHandles hBody hError
  · intro hRejected
    cases hRejected with
    | undecryptable hOpened =>
      obtain ⟨e, l', hRun⟩ := hReady.openFrame_of_undecryptable hOpened
      have hValue : onLink (Link.openFrame cipher payload) c = _ := zoom_of_error hRun
      exact (throws_bind_of_error hValue).mpr trivial
    | unmarshaled hOpened hDecode =>
      obtain ⟨l', hRun⟩ := hReady.openFrame_of_unmarshaled hOpened hDecode
      have hValue : onLink (Link.openFrame cipher payload) c = _ := zoom_of_error hRun
      exact (throws_bind_of_error hValue).mpr trivial
    | unformatted hHolds hError =>
      exact (throws_workOff_of_holds hReady hHolds).mpr (Or.inl ⟨_, hError⟩)
    | pingReq hHolds hPacket hType hLost =>
      exact (throws_workOff_of_holds hReady hHolds).mpr
        (Or.inr ⟨_, hPacket, Or.inl ⟨hType, hLost⟩⟩)
    | callRsp hHolds hPacket hType hHandles hBody hError =>
      exact (throws_workOff_of_holds hReady hHolds).mpr
        (Or.inr ⟨_, hPacket, Or.inr ⟨hType, hHandles, _, _, hBody, hError⟩⟩)

/-- A client that is connected, over a socket, with an OpenSSL that works. -/
structure Live (c : Client) : Prop where
  connected : c.connected = true
  ready : c.link.Ready

/-- A live client passes the check. -/
theorem Live.requireConnected (h : c.Live) : requireConnected c = .ok () c := by
  unfold Client.requireConnected
  rw [bind_of_ok (get_run c), if_neg (by simp [h.connected])]
  rfl

/-- `Receive` on a stream whose first frame is there. -/
theorem Live.throws_receive_of_framed (h : c.Live) {taken rest : List Received}
    {stream payload tail : Bytes} (hArrives : Arrives c.link.connection.decoder.buffer taken stream)
    (hReceives : c.link.network.receives = taken ++ rest) (hFramed : Framed stream payload tail) :
    Throws NetworkError.OfInput (receive cipher) c ↔
      RejectedPayload cipher c.link.connection.crypto c.generation c.hasCallRspHandler payload := by
  have hFrame : Link.receiveMarshal cipher c.link =
      Link.openFrame cipher payload (c.link.withInput tail rest) :=
    h.ready.receiveMarshal_of_framed hArrives hReceives hFramed
  have hReady : (c.link.withInput tail rest).Ready :=
    ⟨h.ready.connected, h.ready.socket, h.ready.reliable⟩
  rw [receive, throws_bind_of_ok h.requireConnected]
  refine Iff.trans ?_ (throws_workOff_iff (c := { c with link := c.link.withInput tail rest })
    hReady payload)
  have hSame : receiveMarshal cipher c =
      onLink (Link.openFrame cipher payload) { c with link := c.link.withInput tail rest } := by
    simp only [receiveMarshal, onLink, zoom, hFrame]
  unfold workOff Throws
  simp only [bind, EStateM.bind, hSame]

/-- `Receive` on a stream without one. -/
theorem Live.throws_receive_of_error (h : c.Live) {taken rest : List Received} {stream : Bytes}
    {e : NetworkError} {l' : Link}
    (hArrives : Arrives c.link.connection.decoder.buffer taken stream)
    (hReceives : c.link.network.receives = taken ++ rest)
    (hRun : Link.receiveFrame rest (c.link.withInput stream rest) = .error e l') :
    Throws NetworkError.OfInput (receive cipher) c ↔ e.OfInput := by
  have hError : Link.receiveMarshal cipher c.link = .error e l' :=
    h.ready.receiveMarshal_of_error hArrives hReceives hRun
  have hThrows : onLink (Link.receiveMarshal cipher) c = _ := zoom_of_error hError
  rw [receive, throws_bind_of_ok h.requireConnected, receiveMarshal, throws_bind_of_error hThrows]
  rfl

/-- `Receive` throws because of its input exactly if it cannot work it off. -/
theorem throws_receive_iff (h : c.Live) :
    Throws NetworkError.OfInput (receive cipher) c ↔ RejectedInput cipher c := by
  constructor
  · intro hThrows
    obtain ⟨taken, rest, stream, hReceives, hArrives, hEnd⟩ :=
      arrives_end c.link.network.receives c.link.connection.decoder.buffer
    rcases hEnd with hLong | ⟨payload, tail, hFramed⟩ | ⟨hWaits, hStops⟩
    · exact .oversized hArrives hReceives hLong
    · exact .payload hArrives hReceives hFramed
        ((h.throws_receive_of_framed hArrives hReceives hFramed).mp hThrows)
    · obtain ⟨e, l', hRun, hCause⟩ :=
        Link.receiveFrame_of_stops (l := c.link.withInput stream rest) hWaits hStops
      have hInput := (h.throws_receive_of_error hArrives hReceives hRun).mp hThrows
      rcases hCause with ⟨message, rfl⟩ | ⟨message, rfl⟩ | ⟨received, rest, rfl, hData, hLong⟩
      · exact hInput.elim
      · exact hInput.elim
      · exact .overrun hArrives hReceives hWaits hData hLong
  · intro hRejected
    cases hRejected with
    | @overrun taken rest received stream hArrives hReceives hWaits hData hLong =>
      obtain ⟨e, l', hRun⟩ := Link.receiveFrame_of_overrun
        (l := c.link.withInput stream (received :: rest)) hWaits hData hLong rest
      exact (h.throws_receive_of_error hArrives hReceives hRun).mpr trivial
    | @oversized taken rest stream hArrives hReceives hLong =>
      obtain ⟨e, l', hRun⟩ := Link.receiveFrame_of_oversized
        (l := c.link.withInput stream rest) hLong rest
      exact (h.throws_receive_of_error hArrives hReceives hRun).mpr trivial
    | payload hArrives hReceives hFramed hBad =>
      exact (h.throws_receive_of_framed hArrives hReceives hFramed).mpr hBad

-- ---------------------------------------------------------------------------
-- Afterwards
-- ---------------------------------------------------------------------------

/-- The client and its connection report connected. -/
def ReportsOpen (c : Client) : Prop :=
  c.isConnected = true ∧ c.link.connection.connected = true

/-- `ReceiveMarshal` does not close the connection. -/
theorem keeps_connected_receiveMarshal :
    Keeps (fun l : Link => l.connection.connected = true) (Link.receiveMarshal cipher) := by
  refine Link.keeps_receiveMarshal_of_took fun l popped s hl hTook => ?_
  exact hTook.connected.trans hl

/-- Nor does `SendMarshal`. -/
theorem keeps_connected_sendMarshal (value : Value) :
    Keeps (fun l : Link => l.connection.connected = true) (Link.sendMarshal cipher value) := by
  refine keeps_of_relation (Link.hoare_sendMarshal_wrote cipher value) fun l s hl hWrote => ?_
  exact hWrote.connected.trans hl

/-- What is done on the connection leaves the flag of the client. -/
theorem keeps_open_onLink {α : Type} {m : LinkM α}
    (h : Keeps (fun l : Link => l.connection.connected = true) m) :
    Keeps ReportsOpen (onLink m) :=
  keeps_onLink h (fun _ hc => hc.2) fun _ _ hc hl => ⟨hc.1, hl⟩

/-- Nor does handling a packet close anything. -/
theorem keeps_open_handleIncoming (value : Value) :
    Keeps ReportsOpen (handleIncoming cipher value) := by
  refine keeps_get.bind fun c => ?_
  refine (keeps_fromExcept _ _).bind fun packet => ?_
  split
  · exact keeps_open_onLink (keeps_connected_sendMarshal _)
  · refine keeps_get.bind fun c => ?_
    refine Hoare.ite (fun _ => ?_) fun _ => keeps_pure _
    exact (keeps_decodeCallRsp packet).bind fun result => hoare_modify fun _ hc => hc
  · exact keeps_pure _

/-- `Receive` leaves an open client open, whether it returns or throws. -/
theorem keeps_open_receive : Keeps ReportsOpen (receive cipher) := by
  refine keeps_requireConnected.bind fun _ => ?_
  refine Hoare.bind (keeps_open_onLink keeps_connected_receiveMarshal) fun value => ?_
  exact (keeps_open_handleIncoming value).bind fun _ => keeps_pure _

/-- The documented policy: if `Receive` throws because of its input, the connection is closed
afterwards and the client not connected. -/
def ClosesOnMalformed (cipher : Cipher) (c : Client) : Prop :=
  ∀ e c', receive cipher c = .error e c' → e.OfInput →
    c'.isConnected = false ∧ c'.link.connection.connected = false

/-- Where the policy would have the connection closed it is open. -/
theorem not_closesOnMalformed_of_rejected (h : c.Live) (hRejected : RejectedInput cipher c) :
    ¬ClosesOnMalformed cipher c := by
  intro hCloses
  obtain ⟨e, c', hError, hInput⟩ := (throws_receive_iff h).mpr hRejected
  have hOpen := @keeps_open_receive cipher c ⟨h.connected, h.ready.connected⟩
  rw [hError] at hOpen
  have hClosed := (hCloses e c' hError hInput).2
  rw [hOpen.2] at hClosed
  cases hClosed

/-- The policy holds of an input exactly if the client can work it off, so that the policy
does not apply. -/
theorem closes_on_malformed_iff (h : c.Live) :
    ClosesOnMalformed cipher c ↔ ¬RejectedInput cipher c := by
  constructor
  · intro hCloses hRejected
    exact not_closesOnMalformed_of_rejected h hRejected hCloses
  · intro hAccepted e c' hError hInput
    exact absurd ((throws_receive_iff h).mp ⟨e, c', hError, hInput⟩) hAccepted

/-- A client after `Connect`, with four bytes on the way that declare a frame of 4 GiB. -/
def floodedClient : Client where
  host := "localhost"
  link := {
    connection := { generation := 1, connected := true, crypto := some sessionCrypto, socket := 1 }
    network := { receives := [.data [0xFF, 0xFF, 0xFF, 0xFF]] } }
  handshake := .session
  connected := true

/-- It is connected, and nothing has failed. -/
theorem live_floodedClient : floodedClient.Live where
  connected := rfl
  ready := { connected := rfl, socket := by decide, reliable := nofun }

/-- The declared length is beyond the limit. -/
theorem rejected_floodedClient (cipher : Cipher) : RejectedInput cipher floodedClient := by
  have hArrives : Arrives [] [.data [0xFF, 0xFF, 0xFF, 0xFF]] [0xFF, 0xFF, 0xFF, 0xFF] :=
    .more (Or.inl (by decide)) (by decide) (by decide) (.now _)
  exact .oversized hArrives (List.append_nil _).symm ⟨by decide, by decide⟩

/-- The policy does not hold of it. -/
theorem closes_on_malformed_iff_floodedClient :
    ClosesOnMalformed xorCipher floodedClient ↔ ¬RejectedInput xorCipher floodedClient :=
  closes_on_malformed_iff live_floodedClient

/-- That client goes on as if connected. -/
theorem not_closes_on_malformed :
    ¬ ∀ (cipher : Cipher) (c : Client), c.Live → ClosesOnMalformed cipher c := by
  intro h
  exact not_closesOnMalformed_of_rejected live_floodedClient (rejected_floodedClient xorCipher)
    (h xorCipher floodedClient live_floodedClient)

end Client

end Ithax.Network
