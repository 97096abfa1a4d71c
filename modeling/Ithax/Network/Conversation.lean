import Ithax.Network.AtomicSends
import Ithax.Network.MalformedInput

/-!
# A conversation

Two connections with the same session crypto, and a reliable stream of bytes in each
direction: what one of them sends with `SendMarshal` the other takes with `ReceiveMarshal`.
A `recv` cuts the stream wherever it likes or times out, and a `ReceiveMarshal` that throws
is called again.

The connections take turns, and a `SendMarshal` that has moved the vector of its session
crypto does not throw.

## Results

* `receiveFrame_ends`   — the loop of `ReceiveMarshal` on the front of a legal stream.
* `receiveMarshal_ends` — a value comes out, or nothing is lost.
* `conversing_run`      — each side is in step with the other.
* `conversation_of_run` — what is sent is received, in its order.
-/

namespace Ithax.Network

open Ithax.Lib Ithax.Marshal FrameDecoder

-- ---------------------------------------------------------------------------
-- The two sides
-- ---------------------------------------------------------------------------

/-- `inFlight s` holds the bytes on their way to `s`. -/
structure Conversation where
  link : Side → Link
  inFlight : Side → Bytes
  /-- The values whose `SendMarshal` returned, oldest first. -/
  sent : Side → List Value
  /-- What `ReceiveMarshal` returned. -/
  received : Side → List Value

/-- What happens next. -/
inductive ConversationAction where
  /-- `SendMarshal`, with the answers of `send`. -/
  | send (side : Side) (value : Value) (sends : List Int)
  /-- A `recv` to come delivers so many bytes. -/
  | deliver (side : Side) (n : Nat)
  /-- A `recv` to come times out. -/
  | timeOut (side : Side)
  | receive (side : Side)

/-- The link, with the answers of `send` to come. -/
def Link.accepting (l : Link) (sends : List Int) : Link :=
  { l with network := { l.network with sends } }

/-- The link, with one more answer of `recv` to come. -/
def Link.expecting (l : Link) (received : Received) : Link :=
  { l with network := { l.network with receives := l.network.receives ++ [received] } }

/-- The outside is no part of the connection. -/
@[simp] theorem Link.accepting_connection (l : Link) (sends : List Int) :
    (l.accepting sends).connection = l.connection := rfl

/-- The answers of `send` are not those of `recv`. -/
@[simp] theorem Link.accepting_receives (l : Link) (sends : List Int) :
    (l.accepting sends).network.receives = l.network.receives := rfl

namespace Conversation

/-- The call of `SendMarshal` on one side. -/
def call (cipher : Cipher) (c : Conversation) (s : Side) (value : Value) (sends : List Int) :
    EStateM.Result NetworkError Link Unit :=
  Link.sendMarshal cipher value ((c.link s).accepting sends)

/-- One side sends. What it wrote is on its way, also when the call threw. -/
def send (cipher : Cipher) (c : Conversation) (s : Side) (value : Value) (sends : List Int) :
    Conversation :=
  let l := finalState (c.call cipher s value sends)
  { c with
    link := Function.update c.link s l
    inFlight := Function.update c.inFlight s.peer
      (c.inFlight s.peer ++ l.wireBytes.drop (c.link s).wireBytes.length)
    sent := match c.call cipher s value sends with
      | .ok _ _ => Function.update c.sent s (c.sent s ++ [value])
      | .error _ _ => c.sent }

/-- A chunk of what is on its way is delivered. -/
def deliver (c : Conversation) (s : Side) (n : Nat) : Conversation :=
  let chunk := (c.inFlight s).take (min n kRecvChunkBytes)
  if chunk = [] then c
  else
    { c with
      link := Function.update c.link s ((c.link s).expecting (.data chunk))
      inFlight := Function.update c.inFlight s
        ((c.inFlight s).drop (min n kRecvChunkBytes)) }

/-- A `recv` to come times out. -/
def timeOut (c : Conversation) (s : Side) : Conversation :=
  { c with link := Function.update c.link s ((c.link s).expecting .timedOut) }

/-- One side receives. -/
def receive (cipher : Cipher) (c : Conversation) (s : Side) : Conversation :=
  match Link.receiveMarshal cipher (c.link s) with
  | .ok value l =>
    { c with
      link := Function.update c.link s l
      received := Function.update c.received s (c.received s ++ [value]) }
  | .error _ l => { c with link := Function.update c.link s l }

/-- The conversation after one action. -/
def step (cipher : Cipher) (c : Conversation) : ConversationAction → Conversation
  | .send s value sends => c.send cipher s value sends
  | .deliver s n => c.deliver s n
  | .timeOut s => c.timeOut s
  | .receive s => c.receive cipher s

/-- The conversation after some actions. -/
def run (cipher : Cipher) (c : Conversation) (actions : List ConversationAction) : Conversation :=
  actions.foldl (step cipher) c

/-- A side sends when it has received all that was sent to it, and its call returns if it
comes as far as `Encrypt`. -/
def InOrder (cipher : Cipher) (c : Conversation) : ConversationAction → Prop
  | .send s value sends => (c.received s).length = (c.sent s.peer).length ∧
    ∀ marshaled, ((c.link s).accepting sends).Encrypts value marshaled →
      ∃ l, c.call cipher s value sends = .ok () l
  | _ => True

/-- Every action comes in order. -/
def Orderly (cipher : Cipher) : Conversation → List ConversationAction → Prop
  | _, [] => True
  | c, action :: actions => InOrder cipher c action ∧ Orderly cipher (step cipher c action) actions

/-- The bytes for `s` that have not been read. -/
def unread (c : Conversation) (s : Side) : Bytes :=
  (c.link s).connection.decoder.buffer ++ deliveredBytes (c.link s).network.receives ++ c.inFlight s

/-- How many calls of `ReceiveMarshal` it may take to receive all that was sent. -/
def pending (c : Conversation) (s : Side) : Nat :=
  (c.sent s.peer).length - (c.received s).length + (c.link s).network.receives.length

/-- Both sides have installed the session crypto, and nothing is on its way. -/
structure Begins (crypto : SessionCrypto) (c : Conversation) : Prop where
  ready : ∀ s, (c.link s).Ready
  crypto : ∀ s, (c.link s).connection.crypto = some crypto
  unread : ∀ s, c.unread s = []
  sent : ∀ s, c.sent s = []
  received : ∀ s, c.received s = []

end Conversation

-- ---------------------------------------------------------------------------
-- Receiving
-- ---------------------------------------------------------------------------

namespace Link

variable {cipher : Cipher} {l : Link} {later : Bytes} {payloads : List Bytes}

/-- How the loop of `ReceiveMarshal` ends when its stream, with `later` behind it, is that of
`payloads`. -/
inductive FrameEnds (l : Link) (later : Bytes) (payloads : List Bytes) (receives : List Received) :
    EStateM.Result NetworkError Link Bytes → Prop where
  | popped {payload : Bytes} {rest : List Bytes} {buffer : Bytes} {left : List Received}
      (hPayloads : payloads = payload :: rest)
      (hStream : buffer ++ deliveredBytes left ++ later = frameStream rest)
      (hLeft : left.length ≤ receives.length) :
      FrameEnds l later payloads receives (.ok payload (l.withInput buffer left))
  | stopped {e : NetworkError} {buffer : Bytes} {left : List Received}
      (hStream : buffer ++ deliveredBytes left ++ later = frameStream payloads)
      (hLeft : left.length < receives.length ∨ left = [] ∧ (later = [] → payloads = [])) :
      FrameEnds l later payloads receives (.error e (l.withInput buffer left))

/-- Without a complete frame the whole stream is none. -/
theorem nil_of_incomplete {buffer : Bytes} (hStream : buffer = frameStream payloads)
    (hNone : completeFrames payloads buffer.length = []) : payloads = [] := by
  cases payloads with
  | nil => rfl
  | cons payload rest =>
    have hLength : buffer.length = (frameBytes payload).length + (frameStream rest).length := by
      rw [hStream, frameStream, List.flatMap_cons, List.length_append]
      rfl
    rw [hLength, completeFrames_cons] at hNone
    cases hNone

/-- The rest of a stream, behind its first frame. -/
theorem stream_of_split {buffer delivered payload tail : Bytes} {rest : List Bytes}
    (hStream : buffer ++ delivered ++ later = frameStream (payload :: rest))
    (hSplit : buffer = frameBytes payload ++ tail) :
    tail ++ delivered ++ later = frameStream rest := by
  rw [hSplit, frameStream, List.flatMap_cons] at hStream
  simp only [List.append_assoc] at hStream
  rw [List.append_assoc]
  exact List.append_cancel_left hStream

/-- One answer of `recv` more. -/
theorem FrameEnds.more {receives : List Received}
    {ends : EStateM.Result NetworkError Link Bytes}
    (h : FrameEnds l later payloads receives ends) (received : Received) :
    FrameEnds l later payloads (received :: receives) ends := by
  cases h with
  | popped hPayloads hStream hLeft => exact .popped hPayloads hStream (Nat.le_succ_of_le hLeft)
  | stopped hStream hLeft =>
    refine .stopped hStream (Or.inl ?_)
    rcases hLeft with hLess | ⟨rfl, -⟩
    · exact Nat.lt_succ_of_lt hLess
    · exact Nat.succ_pos _

/-- **How the receive loop ends** with the frames of a stream still to come: with the first of
them, or with all that has arrived in the buffer. -/
theorem receiveFrame_ends (hLimit : WithinLimit payloads) (receives : List Received)
    (buffer : Bytes) (hStream : buffer ++ deliveredBytes receives ++ later = frameStream payloads) :
    FrameEnds l later payloads receives (receiveFrame receives (l.withInput buffer receives)) := by
  induction receives generalizing buffer with
  | nil =>
    have hFront : buffer <+: frameStream payloads :=
      ⟨deliveredBytes [] ++ later, by rw [← List.append_assoc, hStream]⟩
    rcases tryPopFrame_spec (d := ⟨buffer⟩) hLimit hFront with
      ⟨hPop, hNone⟩ | ⟨payload, rest, tail, rfl, hSplit, -, -⟩
    · have hTry : onDecoder tryPopFrame (l.withInput buffer []) = _ := zoom_of_ok hPop
      rw [receiveFrame.eq_def, bind_of_ok hTry]
      refine .stopped hStream (Or.inr ⟨rfl, ?_⟩)
      rintro rfl
      refine nil_of_incomplete ?_ hNone
      rw [← hStream]
      simp [deliveredBytes]
    · rw [receiveFrame_of_framed (l := l.withInput buffer [])
        ⟨hLimit payload List.mem_cons_self, hSplit⟩]
      exact .popped rfl (stream_of_split hStream hSplit) (Nat.le_refl 0)
  | cons received receives ih =>
    have hFront : buffer <+: frameStream payloads :=
      ⟨deliveredBytes (received :: receives) ++ later, by rw [← List.append_assoc, hStream]⟩
    rcases tryPopFrame_spec (d := ⟨buffer⟩) hLimit hFront with
      ⟨hPop, -⟩ | ⟨payload, rest, tail, rfl, hSplit, -, -⟩
    · have hTry : onDecoder tryPopFrame (l.withInput buffer (received :: receives)) = _ :=
        zoom_of_ok hPop
      rw [receiveFrame.eq_def, bind_of_ok hTry]
      have hNext : buffer ++ received.bytes ++ deliveredBytes receives ++ later =
          frameStream payloads := by
        rw [← hStream, List.append_assoc buffer]
        rfl
      rcases received with ⟨- | ⟨b, bytes⟩⟩ | - | -
      · exact .stopped (by simpa [Received.bytes] using hNext) (Or.inl (Nat.lt_succ_self _))
      · by_cases hRoom : buffer.length + (Received.data (b :: bytes)).bytes.length ≤
            MAX_FRAME_PAYLOAD_BYTES + FRAME_LENGTH_PREFIX_BYTES
        · have hPush : onDecoder (push ((b :: bytes).take kRecvChunkBytes))
              (l.withInput buffer receives) = _ := zoom_of_ok (push_of_le hRoom)
          refine FrameEnds.more ?_ _
          show FrameEnds l later payloads receives
            ((onDecoder (push _) >>= fun _ => receiveFrame receives) (l.withInput buffer receives))
          rw [bind_of_ok hPush]
          exact ih _ hNext
        · have hPush : onDecoder (push ((b :: bytes).take kRecvChunkBytes))
              (l.withInput buffer receives) = _ :=
            zoom_of_error (push_of_gt (Nat.not_le.mp hRoom))
          show FrameEnds l later payloads _
            ((onDecoder (push _) >>= fun _ => receiveFrame receives) (l.withInput buffer receives))
          rw [bind_of_error hPush]
          exact .stopped hNext (Or.inl (Nat.lt_succ_self _))
      · exact .stopped (by simpa [Received.bytes] using hNext) (Or.inl (Nat.lt_succ_self _))
      · exact .stopped (by simpa [Received.bytes] using hNext) (Or.inl (Nat.lt_succ_self _))
    · rw [receiveFrame_of_framed (l := l.withInput buffer (received :: receives))
        ⟨hLimit payload List.mem_cons_self, hSplit⟩]
      exact .popped rfl (stream_of_split hStream hSplit) (Nat.le_refl _)

/-- The link after a call of `Encrypt` or `Decrypt` that returned. -/
def used (l : Link) (crypto : SessionCrypto) : Link :=
  { l.skipFault with connection := { l.connection with crypto := some crypto } }

/-- How `ReceiveMarshal` ends then, when a peer has sent the payloads for `values`. -/
inductive ReceiveEnds (cipher : Cipher) (l : Link) (later : Bytes) (payloads : List Bytes)
    (values : List Value) (last : SessionCrypto) :
    EStateM.Result NetworkError Link Value → Prop where
  | read {payload : Bytes} {rest : List Bytes} {value : Value} {others : List Value}
      {next : SessionCrypto} {buffer : Bytes} {left : List Received}
      (hPayloads : payloads = payload :: rest) (hValues : values = value :: others)
      (hReads : peerReads cipher next rest = some (others, last))
      (hStream : buffer ++ deliveredBytes left ++ later = frameStream rest)
      (hLeft : left.length ≤ l.network.receives.length) :
      ReceiveEnds cipher l later payloads values last
        (.ok value ((l.withInput buffer left).used next))
  | stopped {e : NetworkError} {buffer : Bytes} {left : List Received}
      (hStream : buffer ++ deliveredBytes left ++ later = frameStream payloads)
      (hLeft : left.length < l.network.receives.length ∨ left = [] ∧ (later = [] → payloads = [])) :
      ReceiveEnds cipher l later payloads values last (.error e (l.withInput buffer left))

/-- What it is that the peer opens. -/
theorem peerOpens_eq_some {crypto next : SessionCrypto} {payload : Bytes} {value : Value}
    (h : peerOpens cipher crypto payload = some (value, next)) :
    ∃ plain, crypto.decrypt cipher none payload = .ok plain next ∧
      Marshal.decode plain true = .ok value := by
  unfold peerOpens at h
  rcases hDecrypt : crypto.decrypt cipher none payload with ⟨plain, after⟩ | ⟨e, after⟩
  · rw [hDecrypt] at h
    simp only at h
    cases hDecode : Marshal.decode plain true with
    | ok found =>
      rw [hDecode] at h
      obtain ⟨rfl, rfl⟩ := Prod.mk.inj (Option.some.inj h)
      exact ⟨plain, rfl, hDecode⟩
    | error e =>
      rw [hDecode] at h
      cases h
  · rw [hDecrypt] at h
    cases h

/-- The same for `ReceiveMarshal`, whose frame is decrypted and decoded. -/
theorem Ready.receiveMarshal_ends (h : l.Ready) (hLimit : WithinLimit payloads)
    {crypto last : SessionCrypto} {values : List Value}
    (hCrypto : l.connection.crypto = some crypto)
    (hReads : peerReads cipher crypto payloads = some (values, last))
    (hStream : l.connection.decoder.buffer ++ deliveredBytes l.network.receives ++ later =
      frameStream payloads) :
    ReceiveEnds cipher l later payloads values last (receiveMarshal cipher l) := by
  have hFrame := receiveFrame_ends (l := l) hLimit _ _ hStream
  rw [receiveMarshal, bind_of_ok h.requireEstablished, bind_of_ok (get_run l)]
  change FrameEnds l later payloads l.network.receives (receiveFrame l.network.receives l) at hFrame
  generalize hRun : receiveFrame l.network.receives l = ends at hFrame
  cases hFrame with
  | @popped payload rest buffer left hPayloads hTail hLeft =>
    subst hPayloads
    obtain ⟨⟨value, next⟩, hOpens, hRest⟩ := Option.bind_eq_some_iff.mp hReads
    obtain ⟨⟨others, last'⟩, hOthers, hSame⟩ := Option.bind_eq_some_iff.mp hRest
    obtain ⟨rfl, rfl⟩ := Prod.mk.inj (Option.some.inj hSame)
    obtain ⟨plain, hDecrypt, hDecode⟩ := peerOpens_eq_some hOpens
    have hReady : (l.withInput buffer left).Ready := ⟨h.connected, h.socket, h.reliable⟩
    have hOpened : onCrypto payload (fun fault => SessionCrypto.decrypt cipher fault payload)
        (l.withInput buffer left) = .ok plain ((l.withInput buffer left).used next) :=
      hReady.onCrypto_of_ok hCrypto hDecrypt
    rw [bind_of_ok hRun, bind_of_ok hOpened, hDecode]
    exact .read rfl rfl hOthers hTail hLeft
  | stopped hSame hLeft =>
    rw [bind_of_error hRun]
    exact .stopped hSame hLeft

-- ---------------------------------------------------------------------------
-- Sending
-- ---------------------------------------------------------------------------

/-- The session crypto is used without a fault. -/
theorem keeps_ready_onCrypto {payload : Bytes} {m : Option EvpFault → CryptoM Bytes} :
    Keeps Ready (onCrypto payload m) := by
  intro l h
  cases hCrypto : l.connection.crypto with
  | none =>
    rw [onCrypto_of_none hCrypto]
    exact h
  | some c =>
    unfold onCrypto
    rw [bind_of_ok (get_run l), hCrypto]
    simp only
    rw [bind_of_ok h.nextFault]
    rcases hRun : m none c with ⟨out, next⟩ | ⟨e, next⟩
    · rw [zoom_of_ok hRun]
      exact h.withCrypto _
    · rw [zoom_of_error hRun]
      exact h.withCrypto _

/-- A value is sent without a fault. -/
theorem keeps_ready_sendMarshal (value : Value) : Keeps Ready (sendMarshal cipher value) := by
  refine Keeps.seq (fun l h => ?_) fun _ => ?_
  · rw [h.requireEstablished]
    exact h
  refine keeps_get.seq fun found => ?_
  refine (keeps_fromExcept _ _).seq fun marshaled => ?_
  refine keeps_ready_onCrypto.seq fun payload => ?_
  refine (keeps_fromExcept _ _).seq fun frame => ?_
  refine keeps_get.seq fun found => ?_
  refine Hoare.bind (Q := fun _ => Ready) (hoare_modify fun s h => ?_) fun _ => ?_
  · exact ⟨h.connected, h.socket, h.reliable⟩
  · exact Hoare.ite (fun _ => hoare_throw fun _ h => h) fun _ => hoare_pure fun _ h => h

/-- What a call that comes as far as `Encrypt`, or does not, leaves of a link. -/
structure Sent (cipher : Cipher) (l : Link) (crypto : SessionCrypto) (marshaled : Option Bytes)
    (l' : Link) : Prop where
  ready : l'.Ready
  decoder : l'.connection.decoder = l.connection.decoder
  receives : l'.network.receives = l.network.receives
  written : l'.wireBytes.drop l.wireBytes.length =
    (marshaled.elim [] fun m => frameBytes (cipher.encrypt crypto.key crypto.iv m))
  crypto : l'.connection.crypto =
    some (marshaled.elim crypto fun m => crypto.updateIv (cipher.encrypt crypto.key crypto.iv m))

/-- What is sent is one frame of the marshaled value, encrypted, or nothing. -/
theorem Ready.sendMarshal_sent (h : l.Ready) {crypto : SessionCrypto} {value : Value}
    (hCrypto : l.connection.crypto = some crypto)
    (hReturns : ∀ marshaled, l.Encrypts value marshaled →
      ∃ l', sendMarshal cipher value l = .ok () l') :
    (∃ e l', sendMarshal cipher value l = .error e l' ∧ Sent cipher l crypto none l') ∨
    ∃ marshaled l', sendMarshal cipher value l = .ok () l' ∧ encode value = .ok marshaled ∧
      (cipher.encrypt crypto.key crypto.iv marshaled).length ≤ MAX_FRAME_PAYLOAD_BYTES ∧
      Sent cipher l crypto (some marshaled) l' := by
  have hReady := (@keeps_ready_sendMarshal cipher value).finalState h
  have hWrote := (hoare_sendMarshal_wrote cipher value l).finalState rfl
  have hEnds := @sendMarshal_ends cipher _ _ hCrypto value
  generalize hRun : sendMarshal cipher value l = ends at hEnds hReady hWrote hReturns
  cases hEnds with
  | @early e l' hNever hWire hKept =>
    refine Or.inl ⟨e, l', rfl, hReady, hWrote.decoder, hWrote.receives, ?_, hKept⟩
    rw [hWire, List.drop_length]
    rfl
  | tooLong hEncrypts =>
    obtain ⟨l', hOk⟩ := hReturns _ hEncrypts
    cases hOk
  | halfway hEncrypts =>
    obtain ⟨l', hOk⟩ := hReturns _ hEncrypts
    cases hOk
  | @sent marshaled l' hEncrypts hFits hTakes hWire hMoved =>
    refine Or.inr ⟨marshaled, l', rfl, hEncrypts.2.2.1, hFits, hReady, hWrote.decoder,
      hWrote.receives, ?_, hMoved⟩
    rw [hWire, List.drop_left]
    rfl

end Link

-- ---------------------------------------------------------------------------
-- One way
-- ---------------------------------------------------------------------------

namespace Conversation

variable {cipher : Cipher} {c : Conversation} {s : Side} {payloads : List Bytes}
  {values : List Value} {crypto last : SessionCrypto}

/-- The payloads on their way to `s` hold the values, and take its session crypto to `last`. -/
structure Way (cipher : Cipher) (c : Conversation) (s : Side) (payloads : List Bytes)
    (values : List Value) (crypto last : SessionCrypto) : Prop where
  limit : WithinLimit payloads
  unread : c.unread s = frameStream payloads
  installed : (c.link s).connection.crypto = some crypto
  reads : peerReads cipher crypto payloads = some (values, last)
  sent : (c.sent s.peer).map Value.stored = c.received s ++ values

/-- Nothing is on its way to `s`. -/
abbrev Still (cipher : Cipher) (c : Conversation) (s : Side) (crypto : SessionCrypto) : Prop :=
  Way cipher c s [] [] crypto crypto

/-- Both sides are ready, and all that is on its way goes to `s`. -/
def Toward (cipher : Cipher) (c : Conversation) (s : Side) : Prop :=
  (∀ side, (c.link side).Ready) ∧ ∃ payloads values crypto last,
    Way cipher c s payloads values crypto last ∧ Still cipher c s.peer last

/-- The conversation goes one way at a time. -/
def Conversing (cipher : Cipher) (c : Conversation) : Prop := ∃ s, Toward cipher c s

/-- A value for each payload. -/
theorem length_peerReads (h : peerReads cipher crypto payloads = some (values, last)) :
    payloads.length = values.length := by
  induction payloads generalizing crypto values with
  | nil =>
    obtain ⟨rfl, -⟩ := Prod.mk.inj (Option.some.inj h)
    rfl
  | cons payload payloads ih =>
    obtain ⟨⟨value, next⟩, -, hRest⟩ := Option.bind_eq_some_iff.mp h
    obtain ⟨⟨others, last'⟩, hOthers, hSame⟩ := Option.bind_eq_some_iff.mp hRest
    obtain ⟨rfl, rfl⟩ := Prod.mk.inj (Option.some.inj hSame)
    rw [List.length_cons, List.length_cons, ih hOthers]

/-- A side that has received everything may be taken for the sender. -/
theorem Toward.turn (h : Toward cipher c s)
    (hAll : (c.received s).length = (c.sent s.peer).length) : Toward cipher c s.peer := by
  obtain ⟨hReady, payloads, values, crypto, last, hWay, hStill⟩ := h
  have hValues : values = [] := by
    have hLength := congrArg List.length hWay.sent
    rw [List.length_map, List.length_append, hAll] at hLength
    exact List.eq_nil_of_length_eq_zero (by omega)
  subst hValues
  have hPayloads : payloads = [] :=
    List.eq_nil_of_length_eq_zero (length_peerReads hWay.reads)
  subst hPayloads
  obtain ⟨-, rfl⟩ := Prod.mk.inj (Option.some.inj hWay.reads)
  refine ⟨hReady, [], [], crypto, crypto, hStill, ?_⟩
  rw [Side.peer_peer]
  exact hWay

/-- The frame behind the others, as the receiver reads it. -/
theorem Way.snoc (hCipher : cipher.Padded) (h : Way cipher c s payloads values crypto last)
    {value : Value} {marshaled : Bytes} (hEncode : encode value = .ok marshaled)
    (hFits : (cipher.encrypt last.key last.iv marshaled).length ≤ MAX_FRAME_PAYLOAD_BYTES)
    {d : Conversation} (hLink : d.link s = c.link s)
    (hInFlight : d.inFlight s =
      c.inFlight s ++ frameBytes (cipher.encrypt last.key last.iv marshaled))
    (hSent : d.sent s.peer = c.sent s.peer ++ [value]) (hReceived : d.received s = c.received s) :
    Way cipher d s (payloads ++ [cipher.encrypt last.key last.iv marshaled])
      (values ++ [value.stored]) crypto
      (last.updateIv (cipher.encrypt last.key last.iv marshaled)) := by
  obtain ⟨hLimit, hReads⟩ := PeerInStep.snoc hCipher h.limit h.reads hEncode hFits
  refine ⟨hLimit, ?_, by rw [hLink]; exact h.installed, hReads, ?_⟩
  · rw [Conversation.unread, hLink, hInFlight, ← List.append_assoc, frameStream_append]
    refine congrArg₂ (· ++ ·) h.unread ?_
    rw [frameStream, List.flatMap_singleton]
  · rw [hSent, hReceived, List.map_append, h.sent, List.append_assoc]
    rfl

/-- What a way is does not depend on the rest. -/
theorem Way.of_eq (h : Way cipher c s payloads values crypto last) {c' : Conversation}
    (hUnread : c'.unread s = c.unread s)
    (hCrypto : (c'.link s).connection.crypto = (c.link s).connection.crypto)
    (hSent : c'.sent s.peer = c.sent s.peer) (hReceived : c'.received s = c.received s) :
    Way cipher c' s payloads values crypto last where
  limit := h.limit
  unread := hUnread.trans h.unread
  installed := hCrypto.trans h.installed
  reads := h.reads
  sent := by rw [hSent, hReceived]; exact h.sent

/-- What is unread lies in the buffer, in what was delivered and in what is on its way. -/
theorem unread_of_eq {c' : Conversation}
    (hDecoder : (c'.link s).connection.decoder = (c.link s).connection.decoder)
    (hReceives : (c'.link s).network.receives = (c.link s).network.receives)
    (hInFlight : c'.inFlight s = c.inFlight s) : c'.unread s = c.unread s := by
  rw [unread, unread, hDecoder, hReceives, hInFlight]

/-- What is pending, counted. -/
theorem Way.pending (h : Way cipher c s payloads values crypto last) :
    c.pending s = values.length + (c.link s).network.receives.length := by
  have hLength := congrArg List.length h.sent
  rw [List.length_map, List.length_append] at hLength
  rw [Conversation.pending, hLength, Nat.add_sub_cancel_left]

-- ---------------------------------------------------------------------------
-- One step
-- ---------------------------------------------------------------------------

/-- One side has gone on. -/
theorem ready_update (h : ∀ side, (c.link side).Ready) {l : Link} (hReady : l.Ready)
    (s side : Side) : (Function.update c.link s l side).Ready := by
  by_cases hSide : side = s
  · rw [hSide, Function.update_self]
    exact hReady
  · rw [Function.update_of_ne hSide]
    exact h side

/-- Nothing comes to a side that sends. -/
theorem Way.still_of_sent (h : Still cipher c s last) {sends : List Int} {marshaled : Option Bytes}
    {l : Link} (hCall : Link.Sent cipher ((c.link s).accepting sends) last marshaled l)
    {c' : Conversation} (hLink : c'.link s = l) (hInFlight : c'.inFlight s = c.inFlight s)
    (hSent : c'.sent s.peer = c.sent s.peer) (hReceived : c'.received s = c.received s) :
    Still cipher c' s (marshaled.elim last fun m =>
      last.updateIv (cipher.encrypt last.key last.iv m)) where
  limit := h.limit
  unread := by
    refine (unread_of_eq ?_ ?_ hInFlight).trans h.unread
    · rw [hLink]
      exact hCall.decoder
    · rw [hLink]
      exact hCall.receives
  installed := by
    rw [hLink]
    exact hCall.crypto
  reads := rfl
  sent := by
    rw [hSent, hReceived]
    exact h.sent

/-- The side whose turn it is sends. -/
theorem Toward.send (hCipher : cipher.Padded) (h : Toward cipher c s.peer) {value : Value}
    {sends : List Int}
    (hReturns : ∀ marshaled, ((c.link s).accepting sends).Encrypts value marshaled →
      ∃ l, c.call cipher s value sends = .ok () l) :
    Toward cipher (c.send cipher s value sends) s.peer := by
  obtain ⟨hReady, payloads, values, crypto, last, hWay, hStill⟩ := h
  rw [Side.peer_peer] at hStill
  have hAccepts : ((c.link s).accepting sends).Ready :=
    ⟨(hReady s).connected, (hReady s).socket, (hReady s).reliable⟩
  have hOther : s ≠ s.peer := (Side.peer_ne s).symm
  rcases hAccepts.sendMarshal_sent hStill.installed hReturns with
    ⟨e, l, hRun, hCall⟩ | ⟨marshaled, l, hRun, hEncode, hFits, hCall⟩
  · have hNext : c.send cipher s value sends =
        { c with
          link := Function.update c.link s l
          inFlight := Function.update c.inFlight s.peer
            (c.inFlight s.peer ++ l.wireBytes.drop (c.link s).wireBytes.length) } := by
      simp only [Conversation.send, call, hRun, finalState]
    have hNothing : l.wireBytes.drop (c.link s).wireBytes.length = [] := hCall.written
    rw [hNext, hNothing, List.append_nil, Function.update_eq_self]
    refine ⟨ready_update hReady hCall.ready s, payloads, values, crypto, last, ?_, ?_⟩
    · exact hWay.of_eq (unread_of_eq (by simp) (by simp) rfl) (by simp) rfl rfl
    · rw [Side.peer_peer]
      exact Way.still_of_sent hStill hCall (by simp) rfl rfl rfl
  · have hNext : c.send cipher s value sends =
        { c with
          link := Function.update c.link s l
          inFlight := Function.update c.inFlight s.peer
            (c.inFlight s.peer ++ l.wireBytes.drop (c.link s).wireBytes.length)
          sent := Function.update c.sent s (c.sent s ++ [value]) } := by
      simp only [Conversation.send, call, hRun, finalState]
    have hFrame : l.wireBytes.drop (c.link s).wireBytes.length =
        frameBytes (cipher.encrypt last.key last.iv marshaled) := hCall.written
    rw [hNext, hFrame]
    have hMore := hWay.snoc hCipher hEncode hFits (d := { c with
      link := Function.update c.link s l
      inFlight := Function.update c.inFlight s.peer
        (c.inFlight s.peer ++ frameBytes (cipher.encrypt last.key last.iv marshaled))
      sent := Function.update c.sent s (c.sent s ++ [value]) }) (by simp) (by simp) (by simp) rfl
    refine ⟨ready_update hReady hCall.ready s, _, _, crypto, _, hMore, ?_⟩
    rw [Side.peer_peer]
    exact Way.still_of_sent hStill hCall (by simp) (by simp [hOther]) (by simp) rfl

/-- A side that has received everything may send. -/
theorem Conversing.send (hCipher : cipher.Padded) (h : Conversing cipher c) {value : Value}
    {sends : List Int} (hOrder : InOrder cipher c (.send s value sends)) :
    Conversing cipher (c.send cipher s value sends) := by
  obtain ⟨r, hToward⟩ := h
  obtain ⟨hAll, hReturns⟩ := hOrder
  refine ⟨s.peer, Toward.send hCipher ?_ hReturns⟩
  by_cases hSide : r = s
  · subst hSide
    exact hToward.turn hAll
  · have hPeer : r = s.peer := by
      cases r <;> cases s <;> first | rfl | exact absurd rfl hSide
    exact hPeer ▸ hToward

/-- The links may get other answers of `recv`, as long as the bytes stay the same. -/
theorem Conversing.expecting (h : Conversing cipher c) (received : Received) (left : Bytes)
    (hBytes : received.bytes ++ left = c.inFlight s) :
    Conversing cipher { c with
      link := Function.update c.link s ((c.link s).expecting received)
      inFlight := Function.update c.inFlight s left } := by
  obtain ⟨r, hReady, payloads, values, crypto, last, hWay, hStill⟩ := h
  have hUnread : ∀ side, Conversation.unread { c with
      link := Function.update c.link s ((c.link s).expecting received)
      inFlight := Function.update c.inFlight s left } side = c.unread side := by
    intro side
    by_cases hSide : side = s
    · subst hSide
      simp [Conversation.unread, Link.expecting, deliveredBytes, ← hBytes]
    · simp [Conversation.unread, hSide]
  have hCrypto : ∀ side,
      (Function.update c.link s ((c.link s).expecting received) side).connection =
        (c.link side).connection := by
    intro side
    by_cases hSide : side = s
    · rw [hSide, Function.update_self]
      rfl
    · rw [Function.update_of_ne hSide]
  refine ⟨r, ?_, payloads, values, crypto, last, ?_, ?_⟩
  · have hExpects : ((c.link s).expecting received).Ready :=
      ⟨(hReady s).connected, (hReady s).socket, (hReady s).reliable⟩
    exact ready_update hReady hExpects s
  · exact hWay.of_eq (hUnread r) (congrArg Connection.crypto (hCrypto r)) rfl rfl
  · exact hStill.of_eq (hUnread r.peer) (congrArg Connection.crypto (hCrypto r.peer)) rfl rfl

/-- A chunk is delivered. -/
theorem Conversing.deliver (h : Conversing cipher c) (s : Side) (n : Nat) :
    Conversing cipher (c.deliver s n) := by
  unfold Conversation.deliver
  by_cases hNone : (c.inFlight s).take (min n kRecvChunkBytes) = []
  · simpa [hNone] using h
  · simp only [hNone, if_false]
    refine h.expecting _ _ ?_
    show ((c.inFlight s).take (min n kRecvChunkBytes)).take kRecvChunkBytes ++ _ = _
    rw [List.take_take, Nat.min_eq_right (Nat.min_le_right _ _), List.take_append_drop]

/-- A time-out is to come. -/
theorem Conversing.timeOut (h : Conversing cipher c) (s : Side) :
    Conversing cipher (c.timeOut s) := by
  have hSame := @expecting _ _ s h .timedOut (c.inFlight s) rfl
  rw [Function.update_eq_self] at hSame
  exact hSame

/-- A receive concerns one side, and sends nothing. -/
theorem receive_spares (cipher : Cipher) (c : Conversation) (s : Side) :
    (c.receive cipher s).inFlight = c.inFlight ∧ (c.receive cipher s).sent = c.sent ∧
      ∀ side, side ≠ s → (c.receive cipher s).link side = c.link side ∧
        (c.receive cipher s).received side = c.received side := by
  unfold Conversation.receive
  split
  · exact ⟨rfl, rfl, fun side hSide => ⟨Function.update_of_ne hSide _ _,
      Function.update_of_ne hSide _ _⟩⟩
  · exact ⟨rfl, rfl, fun side hSide => ⟨Function.update_of_ne hSide _ _, rfl⟩⟩

/-- A call of `ReceiveMarshal`: a value is received, or an answer of `recv` is used up, or
there is nothing to receive. -/
theorem Way.receive (hReady : (c.link s).Ready) (h : Way cipher c s payloads values crypto last) :
    ((c.receive cipher s).link s).Ready ∧ ∃ rest others next,
      Way cipher (c.receive cipher s) s rest others next last ∧ (payloads = [] → rest = []) ∧
      (c.inFlight s = [] → (c.receive cipher s).pending s ≤ c.pending s - 1) := by
  obtain ⟨hInFlight, hSent, -⟩ := receive_spares cipher c s
  have hEnds := hReady.receiveMarshal_ends h.limit h.installed h.reads h.unread
  generalize hRun : Link.receiveMarshal cipher (c.link s) = ends at hEnds
  cases hEnds with
  | @read payload rest value others next buffer left hPayloads hValues hReads hStream hLeft =>
    have hLink : (c.receive cipher s).link s = ((c.link s).withInput buffer left).used next := by
      simp only [Conversation.receive, hRun, Function.update_self]
    have hReceived : (c.receive cipher s).received s = c.received s ++ [value] := by
      simp only [Conversation.receive, hRun, Function.update_self]
    have hWay : Way cipher (c.receive cipher s) s rest others next last := by
      refine ⟨fun p hp => h.limit p ?_, ?_, ?_, hReads, ?_⟩
      · rw [hPayloads]
        exact List.mem_cons_of_mem _ hp
      · rw [Conversation.unread, hLink, hInFlight]
        exact hStream
      · rw [hLink]
        rfl
      · rw [hSent, h.sent, hValues, hReceived, List.append_assoc]
        rfl
    have hInput : ((c.link s).withInput buffer left).Ready :=
      ⟨hReady.connected, hReady.socket, hReady.reliable⟩
    refine ⟨hLink ▸ hInput.withCrypto (some next), rest, others, next, hWay, ?_, fun _ => ?_⟩
    · rintro rfl
      cases hPayloads
    · have hReceives : ((c.receive cipher s).link s).network.receives = left := by
        rw [hLink]
        rfl
      rw [hWay.pending, h.pending, hReceives, hValues, List.length_cons]
      omega
  | @stopped e buffer left hStream hLeft =>
    have hLink : (c.receive cipher s).link s = (c.link s).withInput buffer left := by
      simp only [Conversation.receive, hRun, Function.update_self]
    have hReceived : (c.receive cipher s).received s = c.received s := by
      simp only [Conversation.receive, hRun]
    have hWay : Way cipher (c.receive cipher s) s payloads values crypto last := by
      refine ⟨h.limit, ?_, ?_, h.reads, ?_⟩
      · rw [Conversation.unread, hLink, hInFlight]
        exact hStream
      · rw [hLink]
        exact h.installed
      · rw [hSent, hReceived]
        exact h.sent
    have hInput : ((c.link s).withInput buffer left).Ready :=
      ⟨hReady.connected, hReady.socket, hReady.reliable⟩
    refine ⟨hLink ▸ hInput, payloads, values, crypto, hWay, id, fun hLanded => ?_⟩
    have hReceives : ((c.receive cipher s).link s).network.receives = left := by
      rw [hLink]
      rfl
    rw [hWay.pending, h.pending, hReceives]
    rcases hLeft with hLess | ⟨rfl, hNone⟩
    · omega
    · have hLength := length_peerReads h.reads
      rw [hNone hLanded, List.length_nil] at hLength
      rw [← hLength, List.length_nil]
      exact Nat.zero_le _

/-- The other way is left alone. -/
theorem Way.receive_peer (h : Way cipher c s payloads values crypto last) {side : Side}
    (hSide : s ≠ side) : Way cipher (c.receive cipher side) s payloads values crypto last := by
  obtain ⟨hInFlight, hSent, hOther⟩ := receive_spares cipher c side
  obtain ⟨hLink, hReceived⟩ := hOther s hSide
  refine h.of_eq (unread_of_eq ?_ ?_ ?_) ?_ ?_ hReceived
  · rw [hLink]
  · rw [hLink]
  · rw [hInFlight]
  · rw [hLink]
  · rw [hSent]

/-- What comes to one side. -/
theorem Conversing.way (h : Conversing cipher c) (s : Side) :
    ∃ payloads values crypto last, Way cipher c s payloads values crypto last := by
  obtain ⟨r, -, payloads, values, crypto, last, hWay, hStill⟩ := h
  by_cases hSide : r = s
  · exact ⟨payloads, values, crypto, last, hSide ▸ hWay⟩
  · have hPeer : r.peer = s := by
      cases r <;> cases s <;> first | rfl | exact absurd rfl hSide
    exact ⟨[], [], last, last, hPeer ▸ hStill⟩

/-- Both sides are ready. -/
theorem Conversing.ready (h : Conversing cipher c) (s : Side) : (c.link s).Ready := by
  obtain ⟨r, hReady, -⟩ := h
  exact hReady s

/-- A side receives. -/
theorem Conversing.receive (h : Conversing cipher c) (s : Side) :
    Conversing cipher (c.receive cipher s) := by
  obtain ⟨r, hReady, payloads, values, crypto, last, hWay, hStill⟩ := h
  have hReadyNext : ∀ side, ((c.receive cipher s).link side).Ready := by
    intro side
    by_cases hSide : side = s
    · subst hSide
      obtain ⟨_, _, _, _, hAny⟩ := Conversing.way ⟨r, hReady, payloads, values, crypto, last, hWay,
        hStill⟩ side
      exact (hAny.receive (hReady side)).1
    · rw [((receive_spares cipher c s).2.2 side hSide).1]
      exact hReady side
  by_cases hSide : r = s
  · subst hSide
    obtain ⟨-, rest, others, next, hNext, -, -⟩ := hWay.receive (hReady r)
    exact ⟨r, hReadyNext, rest, others, next, last, hNext, hStill.receive_peer (Side.peer_ne r)⟩
  · have hPeer : s = r.peer := by
      cases r <;> cases s <;> first | rfl | exact absurd rfl hSide
    subst hPeer
    obtain ⟨-, rest, others, next, hNext, hNone, -⟩ := hStill.receive (hReady r.peer)
    obtain rfl := hNone rfl
    obtain ⟨rfl, rfl⟩ := Prod.mk.inj (Option.some.inj hNext.reads)
    exact ⟨r, hReadyNext, payloads, values, crypto, next, hWay.receive_peer hSide, hNext⟩

/-- An action in order. -/
theorem Conversing.step (hCipher : cipher.Padded) (h : Conversing cipher c)
    {action : ConversationAction} (hOrder : InOrder cipher c action) :
    Conversing cipher (step cipher c action) := by
  cases action with
  | send s value sends => exact h.send hCipher hOrder
  | deliver s n => exact h.deliver s n
  | timeOut s => exact h.timeOut s
  | receive s => exact h.receive s

-- ---------------------------------------------------------------------------
-- Runs
-- ---------------------------------------------------------------------------

/-- A run in order. -/
theorem conversing_run (hCipher : cipher.Padded) : ∀ (actions : List ConversationAction)
    (c : Conversation), Conversing cipher c → Orderly cipher c actions →
      Conversing cipher (run cipher c actions)
  | [], _, h, _ => h
  | _ :: actions, _, h, ⟨hOrder, hRest⟩ =>
    conversing_run hCipher actions _ (h.step hCipher hOrder) hRest

/-- A new conversation. -/
theorem Begins.conversing (h : Begins crypto c) : Conversing cipher c := by
  have hStill : ∀ s, Still cipher c s crypto := fun s => {
    limit := nofun
    unread := h.unread s
    installed := h.crypto s
    reads := rfl
    sent := by rw [h.sent, h.received]; rfl }
  exact ⟨.left, h.ready, [], [], crypto, crypto, hStill _, hStill _⟩

/-- Once nothing is in flight, the calls of `ReceiveMarshal` bring everything. -/
theorem Conversing.received_of_landed (h : Conversing cipher c) (s : Side)
    (hLanded : c.inFlight s = []) {n : Nat} (hn : c.pending s ≤ n) :
    (run cipher c (List.replicate n (.receive s))).received s =
      (c.sent s.peer).map Value.stored := by
  induction n generalizing c with
  | zero =>
    obtain ⟨payloads, values, crypto, last, hWay⟩ := h.way s
    rw [hWay.pending] at hn
    have hNone : values = [] := List.eq_nil_of_length_eq_zero (by omega)
    rw [hWay.sent, hNone, List.append_nil]
    rfl
  | succ n ih =>
    obtain ⟨payloads, values, crypto, last, hWay⟩ := h.way s
    obtain ⟨-, -, -, -, -, -, hFewer⟩ := hWay.receive (h.ready s)
    obtain ⟨hInFlight, hSent, -⟩ := receive_spares cipher c s
    have hLess := hFewer hLanded
    have hStill : (c.receive cipher s).inFlight s = [] := by
      rw [hInFlight]
      exact hLanded
    have hPending : (c.receive cipher s).pending s ≤ n := by omega
    rw [← hSent]
    exact ih (h.receive s) hStill hPending

end Conversation

open Conversation

/-- Of two connections that take turns, each has received the first of the values that the
other has sent, in their order and as the marshal format keeps them; and when the bytes are
delivered, so many calls of `ReceiveMarshal` receive them all, however `recv` has cut the
stream, timed out and filled the buffer. -/
theorem conversation_of_run {cipher : Cipher} (hCipher : cipher.Padded) {crypto : SessionCrypto}
    {start c : Conversation} (hBegins : Begins crypto start) {actions : List ConversationAction}
    (hOrderly : Orderly cipher start actions) (hRun : run cipher start actions = c) (s : Side) :
    c.received s <+: (c.sent s.peer).map Value.stored ∧
      (c.inFlight s = [] → ∀ n, c.pending s ≤ n →
        (run cipher c (List.replicate n (.receive s))).received s =
          (c.sent s.peer).map Value.stored) := by
  have hConversing : Conversing cipher c :=
    hRun ▸ conversing_run hCipher actions start hBegins.conversing hOrderly
  obtain ⟨payloads, values, last, next, hWay⟩ := hConversing.way s
  exact ⟨⟨values, hWay.sent.symm⟩, fun hLanded n hn => hConversing.received_of_landed s hLanded hn⟩

/-- Two connections in the state of `sessionStart`. -/
def exchangeStart : Conversation where
  link _ := encryptedLink []
  inFlight _ := []
  sent _ := []
  received _ := []

/-- A value whose frame arrives in two pieces with a pause between them, and its answer. -/
def exchangeActions : List ConversationAction :=
  [.send .left (.int 5) [20], .deliver .right 7, .receive .right, .timeOut .right,
    .deliver .right 13, .receive .right, .receive .right, .send .right .none [3, 17],
    .deliver .left 20]

/-- A request and its answer, in chunks and with a time-out between them. -/
theorem conversation_of_run_exchange : ∃ c, run xorCipher exchangeStart exchangeActions = c ∧
    (c.received .right).length = 1 ∧ c.received .right <+: (c.sent .left).map Value.stored ∧
    (c.sent .right).length = 1 ∧
    (run xorCipher c (List.replicate 2 (.receive .left))).received .left =
      (c.sent .right).map Value.stored := by
  have hBegins : Begins sessionStart exchangeStart := by
    have hSocket : (1 : Nat) ≠ 0 := by decide
    exact ⟨fun _ => ⟨rfl, hSocket, nofun⟩, fun _ => rfl, fun _ => rfl, fun _ => rfl, fun _ => rfl⟩
  have hReturns : ∀ r : EStateM.Result NetworkError Link Unit,
      (match r with | .ok _ _ => true | .error _ _ => false) = true → ∃ l, r = .ok () l := by
    intro r h
    cases r with
    | ok u l => exact ⟨l, rfl⟩
    | error e l => cases h
  have hOrderly : Orderly xorCipher exchangeStart exchangeActions := by
    refine ⟨⟨rfl, fun _ _ => hReturns _ ?_⟩, trivial, trivial, trivial, trivial, trivial, trivial,
      ⟨?_, fun _ _ => hReturns _ ?_⟩, trivial, trivial⟩
    · decide +kernel
    · decide +kernel
    · decide +kernel
  have hCounts : ((run xorCipher exchangeStart exchangeActions).received .right).length = 1 ∧
      ((run xorCipher exchangeStart exchangeActions).sent .right).length = 1 ∧
      (run xorCipher exchangeStart exchangeActions).inFlight .left = [] ∧
      (run xorCipher exchangeStart exchangeActions).pending .left ≤ 2 := by
    decide +kernel
  obtain ⟨hRight, hSent, hLanded, hPending⟩ := hCounts
  have hFirst := (conversation_of_run xorCipher_padded hBegins hOrderly rfl .right).1
  have hAnswer := (conversation_of_run xorCipher_padded hBegins hOrderly rfl .left).2 hLanded 2
    hPending
  exact ⟨_, rfl, hRight, hFirst, hSent, hAnswer⟩

end Ithax.Network
