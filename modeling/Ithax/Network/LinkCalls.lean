import Ithax.Network.Loopback

/-!
# What the calls of a connection leave behind

One lemma for each of `Connect`, `SendMarshal` and `ReceiveMarshal`, for the case that it
returns and the case that it throws: what becomes of the generation, of the bytes that were
received, and of the session crypto.

A session crypto is one object from `SetSessionCrypto` on, and only its initialisation
vector moves.

## Results

* `hoare_connect_closed` — a `Connect` that throws leaves the connection as it was.
* `hoare_sendMarshal_wrote` — what `SendMarshal` writes is under the crypto that it finds.
* `hoare_receiveMarshal_took` — what `ReceiveMarshal` returns is in the next frame of the
  bytes that were received.
-/

namespace Ithax.Network

open Ithax.Lib

-- ---------------------------------------------------------------------------
-- Session crypto
-- ---------------------------------------------------------------------------

/-- The object has been used for some ciphertexts. -/
def SessionCrypto.Descends (old new : SessionCrypto) : Prop :=
  ∃ ciphertexts : List Bytes, new = ciphertexts.foldl SessionCrypto.updateIv old

/-- It was not used. -/
theorem SessionCrypto.Descends.refl (crypto : SessionCrypto) : crypto.Descends crypto := ⟨[], rfl⟩

/-- Used, and used again. -/
theorem SessionCrypto.Descends.trans {a b c : SessionCrypto} (h : a.Descends b)
    (h' : b.Descends c) : a.Descends c := by
  obtain ⟨first, rfl⟩ := h
  obtain ⟨second, rfl⟩ := h'
  exact ⟨first ++ second, List.foldl_append.symm⟩

/-- One ciphertext. -/
theorem SessionCrypto.descends_updateIv (crypto : SessionCrypto) (ciphertext : Bytes) :
    crypto.Descends (crypto.updateIv ciphertext) := ⟨[ciphertext], rfl⟩

/-- Encrypting uses it. -/
theorem keeps_descends_encrypt {cipher : Cipher} {fault : Option EvpFault} {plaintext : Bytes}
    (old : SessionCrypto) : Keeps old.Descends (SessionCrypto.encrypt cipher fault plaintext) := by
  intro crypto h
  unfold SessionCrypto.encrypt
  cases fault with
  | none => exact h.trans (crypto.descends_updateIv _)
  | some fault => exact h

/-- Decrypting uses it. -/
theorem keeps_descends_decrypt {cipher : Cipher} {fault : Option EvpFault} {ciphertext : Bytes}
    (old : SessionCrypto) : Keeps old.Descends (SessionCrypto.decrypt cipher fault ciphertext) := by
  intro crypto h
  unfold SessionCrypto.decrypt
  by_cases hLength : ciphertext = [] ∨ ciphertext.length % AES_BLOCK_BYTES ≠ 0
  · rw [if_pos hLength]
    exact h
  · rw [if_neg hLength]
    cases fault with
    | some fault => exact h
    | none =>
      cases hDecrypt : cipher.decrypt crypto.key crypto.iv ciphertext with
      | none => exact h
      | some output => exact h.trans (crypto.descends_updateIv _)

/-- What is installed is what was, up to its use. -/
def Moved (old new : Option SessionCrypto) : Prop :=
  ∀ c ∈ new, ∃ c₀ ∈ old, SessionCrypto.Descends c₀ c

/-- It was not used. -/
theorem Moved.refl (crypto : Option SessionCrypto) : Moved crypto crypto :=
  fun c hc => ⟨c, hc, .refl c⟩

namespace Link

variable {cipher : Cipher} {l s : Link}

/-- Since `l`, at most the session crypto was used. -/
structure Ran (l s : Link) : Prop where
  generation : s.connection.generation = l.connection.generation
  connected : s.connection.connected = l.connection.connected
  decoder : s.connection.decoder = l.connection.decoder
  receives : s.network.receives = l.network.receives
  wire : s.wire = l.wire
  crypto : Moved l.connection.crypto s.connection.crypto

/-- Nothing was done. -/
theorem Ran.refl (l : Link) : l.Ran l := ⟨rfl, rfl, rfl, rfl, rfl, .refl _⟩

/-- Since `l`, at most a fault was drawn. -/
def Drew (l s : Link) : Prop :=
  s.connection = l.connection ∧ s.network.receives = l.network.receives ∧ s.wire = l.wire

/-- At most a fault is drawn. -/
theorem keeps_drew_nextFault (l : Link) : Keeps l.Drew nextFault := by
  intro s hs
  unfold nextFault draw
  rcases s.network.faults with - | ⟨fault, faults⟩
  · exact hs
  · exact hs

/-- A fault that was drawn used no session crypto. -/
theorem Drew.ran (h : l.Drew s) : l.Ran s where
  generation := congrArg Connection.generation h.1
  connected := congrArg Connection.connected h.1
  decoder := congrArg Connection.decoder h.1
  receives := h.2.1
  wire := h.2.2
  crypto := by
    rw [h.1]
    exact .refl _

/-- The session crypto of `l` was used in between. -/
theorem Ran.install (h : l.Ran s) {old new : SessionCrypto} (hOld : l.connection.crypto = some old)
    (hNew : old.Descends new) :
    l.Ran { s with connection := { s.connection with crypto := some new } } := by
  refine { h with crypto := ?_ }
  intro c hc
  obtain rfl := Option.some.inj hc
  exact ⟨old, hOld, hNew⟩

/-- A payload goes through the session crypto, or there is none and it stays as it is. -/
theorem hoare_onCrypto_ran {payload : Bytes} {m : Option EvpFault → CryptoM Bytes}
    (hKeeps : ∀ old fault, Keeps (SessionCrypto.Descends old) (m fault)) (l : Link) :
    Hoare (fun s => s = l) (onCrypto payload m)
      (fun out s => l.Ran s ∧ (l.connection.crypto = none → out = payload) ∧
        ∀ c, l.connection.crypto = some c → ∃ fault next, m fault c = .ok out next)
      l.Ran := by
  refine Hoare.bind (hoare_get (Q := fun s s' => s = l ∧ s' = l) fun s hs => ⟨hs, hs⟩) fun s => ?_
  rintro s' ⟨rfl, rfl⟩
  revert s'
  intro l
  cases hCrypto : l.connection.crypto with
  | none => exact ⟨.refl l, fun _ => rfl, nofun⟩
  | some crypto =>
    have hDraw : Hoare l.Drew nextFault (fun _ => l.Drew) l.Ran :=
      (keeps_drew_nextFault l).weaken (fun _ _ hs => hs) fun _ hs => hs.ran
    refine hDraw.bind (fun fault => ?_) l ⟨rfl, rfl, rfl⟩
    refine hoare_zoom fun t ht => ?_
    rintro used rfl
    have hRun := hKeeps used fault used (.refl used)
    rcases hm : m fault used with ⟨out, next⟩ | ⟨e, next⟩
    · rw [hm] at hRun
      refine ⟨ht.ran.install hCrypto hRun, nofun, ?_⟩
      intro c hc
      obtain rfl := Option.some.inj hc
      exact ⟨fault, next, hm⟩
    · rw [hm] at hRun
      exact ht.ran.install hCrypto hRun

-- ---------------------------------------------------------------------------
-- Connecting
-- ---------------------------------------------------------------------------

/-- The check of the host does not concern the connection. -/
theorem keeps_connection_validateLoopbackHost (host : String) (connection : Connection) :
    Keeps (fun s => s.connection = connection) (validateLoopbackHost host) := by
  intro s hs
  obtain ⟨passes, hCheck, -⟩ := isLoopbackAddress_eq host s
  unfold validateLoopbackHost
  simp only [bind, EStateM.bind, hCheck]
  cases passes with
  | true => exact hs
  | false => exact hs

/-- Nor does a lookup. -/
theorem keeps_connection_nextLookup (connection : Connection) :
    Keeps (fun s => s.connection = connection) nextLookup := by
  intro s hs
  rw [nextLookup_eq]
  exact hs

/-- Nor do the addresses that are tried. -/
theorem keeps_connection_openSocket (entries : List SockAddr) (connection : Connection) :
    Keeps (fun s => s.connection = connection) (openSocket entries) := by
  intro s hs
  obtain ⟨opened, next, hRun, hSame, -⟩ := openSocket_eq entries s
  rw [hRun]
  exact hSame.trans hs

/-- A `Connect` that returns begins a new generation on a closed connection, with nothing
received and no session crypto; one that throws leaves the connection as it was. -/
theorem hoare_connect_closed (host : String) (connection : Connection) :
    Hoare (fun s => s.connection = connection) (connect host)
      (fun _ (s : Link) => s.connection.generation = connection.generation + 1 ∧
        s.connection.connected = true ∧ s.connection.decoder = {} ∧ s.connection.crypto = none)
      fun s => s.connection = connection := by
  refine (keeps_connection_validateLoopbackHost host connection).bind fun _ => ?_
  refine (hoare_get (Q := fun _ (s : Link) => s.connection = connection) fun _ hs => hs).bind
    fun _ => ?_
  refine Hoare.ite (fun _ => hoare_throw fun _ hs => hs) fun _ => ?_
  refine (keeps_connection_nextLookup connection).bind fun entries => ?_
  cases entries with
  | none => exact hoare_throw fun _ hs => hs
  | some entries =>
    refine (keeps_connection_openSocket entries connection).bind fun opened => ?_
    cases opened with
    | none => exact hoare_throw fun _ hs => hs
    | some opened =>
      refine hoare_modify fun s hs => ⟨?_, rfl, rfl, rfl⟩
      show s.connection.generation + 1 = connection.generation + 1
      rw [hs]

-- ---------------------------------------------------------------------------
-- Sending
-- ---------------------------------------------------------------------------

/-- An open connection passes the check. -/
theorem requireEstablished_of_open {l : Link} (hConnected : l.connection.connected = true)
    (hSocket : l.connection.socket ≠ 0) : requireEstablished l = .ok () l := by
  unfold requireEstablished
  rw [bind_of_ok (get_run l),
    if_neg (by simp [hConnected, hSocket])]
  rfl

/-- A closed one does not. -/
theorem requireEstablished_of_closed {l : Link}
    (h : l.connection.connected = false ∨ l.connection.socket = 0) :
    requireEstablished l = .error (.closed "connection is not established") l := by
  unfold requireEstablished
  rw [bind_of_ok (get_run l), if_pos h]
  rfl

/-- What passes the check is connected. -/
theorem hoare_requireEstablished_connected (l : Link) :
    Hoare (fun s => s = l) requireEstablished (fun _ s => s = l ∧ l.connection.connected = true)
      fun s => s = l := by
  rintro s rfl
  by_cases hClosed : s.connection.connected = false ∨ s.connection.socket = 0
  · rw [requireEstablished_of_closed hClosed]
  · rw [not_or, Bool.not_eq_false] at hClosed
    rw [requireEstablished_of_open hClosed.1 hClosed.2]
    exact ⟨rfl, hClosed.1⟩

/-- Since `l`, a value may have been written, under the session crypto of `l`. -/
structure Wrote (value : Marshal.Value) (l s : Link) : Prop where
  generation : s.connection.generation = l.connection.generation
  connected : s.connection.connected = l.connection.connected
  decoder : s.connection.decoder = l.connection.decoder
  receives : s.network.receives = l.network.receives
  crypto : Moved l.connection.crypto s.connection.crypto
  wire : s.wire = l.wire ∨ l.connection.connected = true ∧
    ∃ written, s.wire = l.wire ++ [{ value, crypto := l.connection.crypto, written }]

/-- Nothing was written. -/
theorem Ran.wrote {value : Marshal.Value} (h : l.Ran s) : Wrote value l s :=
  { h with wire := .inl h.wire }

/-- `SendMarshal` writes its value once at most, whether it returns or throws. -/
theorem hoare_sendMarshal_wrote (cipher : Cipher) (value : Marshal.Value) (l : Link) :
    Hoare (fun s => s = l) (sendMarshal cipher value) (fun _ => Wrote value l) (Wrote value l) := by
  have hSame : ∀ s, s = l → Wrote value l s := by
    rintro s rfl
    exact (Ran.refl s).wrote
  refine ((hoare_requireEstablished_connected l).weaken (fun _ _ hs => hs) hSame).bind fun _ => ?_
  refine Hoare.assuming fun hConnected => ?_
  refine Hoare.bind (hoare_get (Q := fun found s => s = l ∧ found = l) fun s hs => ⟨hs, hs⟩)
    fun found => ?_
  refine Hoare.assuming fun hFound => ?_
  rw [hFound]
  refine (hoare_fromExcept hSame).bind fun marshaled => ?_
  refine Hoare.assuming fun _ => ?_
  refine ((hoare_onCrypto_ran (fun old _ => keeps_descends_encrypt old) l).weaken
    (fun _ _ hs => hs.1) fun _ hs => hs.wrote).bind fun payload => ?_
  refine (hoare_fromExcept fun _ hs => hs.wrote).bind fun frame => ?_
  refine Hoare.assuming fun _ => ?_
  refine (hoare_get (Q := fun _ s => l.Ran s) fun _ hs => hs).bind fun found => ?_
  refine Hoare.bind (Q := fun _ => Wrote value l) (hoare_modify fun s hs => ?_) fun _ => ?_
  · exact { hs with wire := .inr ⟨hConnected, _, by rw [hs.wire]⟩ }
  · exact Hoare.ite (fun _ => hoare_throw fun _ hs => hs) fun _ => hoare_pure fun _ hs => hs

-- ---------------------------------------------------------------------------
-- Receiving
-- ---------------------------------------------------------------------------

end Link

/-- The bytes that a `recv` delivers. -/
def Received.bytes : Received → Bytes
  | .data bytes => bytes.take kRecvChunkBytes
  | _ => []

/-- All that some `recv`s deliver. -/
def deliveredBytes (receives : List Received) : Bytes := receives.flatMap Received.bytes

/-- A buffer that has a complete frame begins with it. -/
theorem frameBytes_append_drop {buffer : Bytes}
    (hPrefix : FRAME_LENGTH_PREFIX_BYTES ≤ buffer.length) {n : Nat}
    (hLength : leNat (buffer.take FRAME_LENGTH_PREFIX_BYTES) = n)
    (hFull : FRAME_LENGTH_PREFIX_BYTES + n ≤ buffer.length) :
    ((buffer.drop FRAME_LENGTH_PREFIX_BYTES).take n).length = n ∧
    frameBytes ((buffer.drop FRAME_LENGTH_PREFIX_BYTES).take n) ++
      buffer.drop (FRAME_LENGTH_PREFIX_BYTES + n) = buffer := by
  have hPayload : ((buffer.drop FRAME_LENGTH_PREFIX_BYTES).take n).length = n := by
    rw [List.length_take, List.length_drop]
    omega
  have hTake : (buffer.take FRAME_LENGTH_PREFIX_BYTES).length = FRAME_LENGTH_PREFIX_BYTES :=
    List.length_take_of_le hPrefix
  have hFront := leBytes_leNat (buffer.take FRAME_LENGTH_PREFIX_BYTES)
  rw [hTake, hLength] at hFront
  refine ⟨hPayload, ?_⟩
  calc frameBytes ((buffer.drop FRAME_LENGTH_PREFIX_BYTES).take n) ++
        buffer.drop (FRAME_LENGTH_PREFIX_BYTES + n)
      = buffer.take FRAME_LENGTH_PREFIX_BYTES ++ (buffer.drop FRAME_LENGTH_PREFIX_BYTES).take n ++
          (buffer.drop FRAME_LENGTH_PREFIX_BYTES).drop n := by
        rw [frameBytes, hPayload, hFront, List.drop_drop]
    _ = buffer := by
        rw [List.append_assoc, List.take_append_drop, List.take_append_drop]

/-- `TryPopFrame` hands out the first frame of the buffer, or leaves the buffer alone. -/
theorem hoare_tryPopFrame (buffer : Bytes) :
    Hoare (fun d => d.buffer = buffer) FrameDecoder.tryPopFrame
      (fun popped d => buffer = frameStream popped.toList ++ d.buffer ∧ WithinLimit popped.toList)
      fun d => d.buffer = buffer := by
  rintro d rfl
  unfold FrameDecoder.tryPopFrame
  by_cases hPrefix : d.buffer.length < FRAME_LENGTH_PREFIX_BYTES
  · rw [if_pos hPrefix]
    exact ⟨rfl, nofun⟩
  · rw [if_neg hPrefix]
    simp only
    by_cases hLarge : leNat (d.buffer.take FRAME_LENGTH_PREFIX_BYTES) > MAX_FRAME_PAYLOAD_BYTES
    · rw [if_pos hLarge]
    · rw [if_neg hLarge]
      by_cases hShort : d.buffer.length <
          FRAME_LENGTH_PREFIX_BYTES + leNat (d.buffer.take FRAME_LENGTH_PREFIX_BYTES)
      · rw [if_pos hShort]
        exact ⟨rfl, nofun⟩
      · rw [if_neg hShort]
        obtain ⟨hLength, hSplit⟩ :=
          frameBytes_append_drop (Nat.not_lt.mp hPrefix) rfl (Nat.not_lt.mp hShort)
        constructor
        · show d.buffer = frameStream [_] ++ _
          rw [frameStream, List.flatMap_singleton]
          exact hSplit.symm
        · intro payload hMem
          rw [List.mem_singleton.mp hMem, hLength]
          exact Nat.not_lt.mp hLarge

/-- A push puts the bytes into the buffer, before it checks anything. -/
theorem hoare_push (buffer bytes : Bytes) :
    Hoare (fun d => d.buffer = buffer) (FrameDecoder.push bytes)
      (fun _ d => d.buffer = buffer ++ bytes) fun d => d.buffer = buffer ++ bytes := by
  rintro d rfl
  unfold FrameDecoder.push
  simp only
  by_cases hLarge : (d.buffer ++ bytes).length > MAX_FRAME_PAYLOAD_BYTES + FRAME_LENGTH_PREFIX_BYTES
  · rw [if_pos hLarge]
  · rw [if_neg hLarge]

namespace Link

variable {cipher : Cipher} {l s : Link}

/-- Since `l`, answers of `recv` were taken, a frame may have been taken off the front of the
buffer, and `pending` is still to be pushed. -/
structure Reads (l : Link) (popped : Option Bytes) (pending : Bytes) (s : Link) : Prop where
  generation : s.connection.generation = l.connection.generation
  connected : s.connection.connected = l.connection.connected
  crypto : s.connection.crypto = l.connection.crypto
  wire : s.wire = l.wire
  limit : WithinLimit popped.toList
  stream : ∃ taken, l.network.receives = taken ++ s.network.receives ∧
    l.connection.decoder.buffer ++ deliveredBytes taken =
      frameStream popped.toList ++ s.connection.decoder.buffer ++ pending

/-- Nothing was read. -/
theorem Reads.start (l : Link) : l.Reads none [] l :=
  ⟨rfl, rfl, rfl, rfl, nofun, [], rfl, by simp [deliveredBytes, frameStream]⟩

/-- A frame is taken from the buffer. -/
theorem hoare_onDecoder_tryPopFrame (l : Link) (receives : List Received) :
    Hoare (fun s => l.Reads none [] s ∧ s.network.receives = receives)
      (onDecoder FrameDecoder.tryPopFrame)
      (fun popped s => l.Reads popped [] s ∧ s.network.receives = receives) (l.Reads none []) := by
  refine hoare_zoom fun t ⟨ht, hReceives⟩ => ?_
  refine ((hoare_tryPopFrame t.connection.decoder.buffer).strengthen ?_).weaken ?_ ?_
  · rintro d rfl
    rfl
  · rintro popped d ⟨hSplit, hLimit⟩
    obtain ⟨taken, hTaken, hStream⟩ := ht.stream
    refine ⟨{ ht with limit := hLimit, stream := ⟨taken, hTaken, ?_⟩ }, hReceives⟩
    rw [hStream, List.append_nil, List.append_nil, hSplit]
    rfl
  · intro d hd
    obtain ⟨taken, hTaken, hStream⟩ := ht.stream
    refine { ht with stream := ⟨taken, hTaken, ?_⟩ }
    rw [hStream, ← hd]

/-- The answer of a `recv` is taken, and its bytes are pending. -/
theorem hoare_setReceives (l : Link) (received : Received) (rest : List Received) :
    Hoare (fun s => l.Reads none [] s ∧ s.network.receives = received :: rest) (setReceives rest)
      (fun _ s => l.Reads none received.bytes s ∧ s.network.receives = rest) fun _ => False := by
  refine hoare_modify fun s ⟨hs, hReceives⟩ => ?_
  obtain ⟨taken, hTaken, hStream⟩ := hs.stream
  refine ⟨{ hs with stream := ⟨taken ++ [received], ?_, ?_⟩ }, rfl⟩
  · rw [hTaken, hReceives, List.append_assoc]
    rfl
  · rw [List.append_nil] at hStream
    rw [deliveredBytes, List.flatMap_append, List.flatMap_singleton, ← List.append_assoc]
    exact congrArg (· ++ received.bytes) hStream

/-- A chunk is put into the buffer. -/
theorem hoare_onDecoder_push (l : Link) (bytes : Bytes) (receives : List Received) :
    Hoare (fun s => l.Reads none bytes s ∧ s.network.receives = receives)
      (onDecoder (FrameDecoder.push bytes))
      (fun _ s => l.Reads none [] s ∧ s.network.receives = receives) (l.Reads none []) := by
  refine hoare_zoom fun t ⟨ht, hReceives⟩ => ?_
  obtain ⟨taken, hTaken, hStream⟩ := ht.stream
  have hPushed : ∀ d : FrameDecoder, d.buffer = t.connection.decoder.buffer ++ bytes →
      l.Reads none [] { t with connection := { t.connection with decoder := d } } := by
    intro d hd
    refine { ht with stream := ⟨taken, hTaken, ?_⟩ }
    rw [hStream, List.append_nil, List.append_assoc, ← hd]
  refine ((hoare_push t.connection.decoder.buffer bytes).strengthen ?_).weaken ?_ ?_
  · rintro d rfl
    rfl
  · exact fun _ d hd => ⟨hPushed d hd, hReceives⟩
  · exact hPushed

/-- A `recv` without bytes makes the loop throw. -/
theorem hoare_throw_received (l : Link) {received : Received} (hBytes : received.bytes = [])
    (rest : List Received) (e : NetworkError) {Q : Bytes → Link → Prop} :
    Hoare (fun s => l.Reads none [] s ∧ s.network.receives = received :: rest)
      (do setReceives rest; throw e) Q (l.Reads none []) := by
  refine ((hoare_setReceives l received rest).weaken (fun _ _ hs => hs) (fun _ => False.elim)).bind
    fun _ => hoare_throw fun s hs => ?_
  exact hBytes ▸ hs.1

/-- The loop of `ReceiveMarshal` ends with the next frame of the stream. -/
theorem hoare_receiveFrame (l : Link) : ∀ receives : List Received,
    Hoare (fun s => l.Reads none [] s ∧ s.network.receives = receives) (receiveFrame receives)
      (fun payload => l.Reads (some payload) []) (l.Reads none []) := by
  intro receives
  induction receives with
  | nil =>
    unfold receiveFrame
    refine (hoare_onDecoder_tryPopFrame l []).bind fun popped => ?_
    cases popped with
    | some payload => exact hoare_pure fun _ hs => hs.1
    | none => exact hoare_throw fun _ hs => hs.1
  | cons received rest ih =>
    unfold receiveFrame
    refine (hoare_onDecoder_tryPopFrame l (received :: rest)).bind fun popped => ?_
    cases popped with
    | some payload => exact hoare_pure fun _ hs => hs.1
    | none =>
      rcases received with ⟨- | ⟨b, bytes⟩⟩ | - | -
      · exact hoare_throw_received l rfl rest _
      · refine ((hoare_setReceives l _ rest).weaken (fun _ _ hs => hs) (fun _ => False.elim)).bind
          fun _ => ?_
        exact (hoare_onDecoder_push l _ rest).bind fun _ => ih
      · exact hoare_throw_received l rfl rest _
      · exact hoare_throw_received l rfl rest _

/-- Since `l`, a call of `ReceiveMarshal` was made. -/
structure Took (l : Link) (popped : Option Bytes) (s : Link) : Prop where
  generation : s.connection.generation = l.connection.generation
  connected : s.connection.connected = l.connection.connected
  crypto : Moved l.connection.crypto s.connection.crypto
  wire : s.wire = l.wire
  limit : WithinLimit popped.toList
  stream : ∃ taken, l.network.receives = taken ++ s.network.receives ∧
    l.connection.decoder.buffer ++ deliveredBytes taken =
      frameStream popped.toList ++ s.connection.decoder.buffer

/-- A frame was taken, and the rest done with the session crypto. -/
theorem Reads.took {popped : Option Bytes} {mid : Link} (h : l.Reads popped [] mid)
    (hRan : mid.Ran s) : l.Took popped s where
  generation := hRan.generation.trans h.generation
  connected := hRan.connected.trans h.connected
  crypto := h.crypto ▸ hRan.crypto
  wire := hRan.wire.trans h.wire
  limit := h.limit
  stream := by
    obtain ⟨taken, hTaken, hStream⟩ := h.stream
    refine ⟨taken, ?_, ?_⟩
    · rw [hRan.receives]
      exact hTaken
    · rw [hRan.decoder, hStream, List.append_nil]

/-- The value is what a payload holds, under the session crypto if there is one. -/
def Opens (cipher : Cipher) (crypto : Option SessionCrypto) (payload : Bytes)
    (value : Marshal.Value) : Prop :=
  match crypto with
  | none => Marshal.decode payload true = .ok value
  | some c => ∃ plain next, c.decrypt cipher none payload = .ok plain next ∧
      Marshal.decode plain true = .ok value

/-- Where no fault got in the way there might as well have been none. -/
theorem decrypt_of_fault {c next : SessionCrypto} {fault : Option EvpFault} {payload plain : Bytes}
    (h : c.decrypt cipher fault payload = .ok plain next) :
    c.decrypt cipher none payload = .ok plain next := by
  cases fault with
  | none => exact h
  | some fault =>
    unfold SessionCrypto.decrypt at h
    split at h
    · exact nomatch h
    · exact nomatch h

/-- What `ReceiveMarshal` returns is in the next frame of the stream, and when it throws it
has taken a frame as a whole or none. -/
theorem hoare_receiveMarshal_took (cipher : Cipher) (l : Link) :
    Hoare (fun s => s = l) (receiveMarshal cipher)
      (fun value s => l.connection.connected = true ∧
        ∃ payload, l.Took (some payload) s ∧ Opens cipher l.connection.crypto payload value)
      fun s => ∃ popped, l.Took popped s := by
  have hSame : ∀ s, s = l → ∃ popped, l.Took popped s := by
    rintro s rfl
    exact ⟨none, (Reads.start s).took (.refl s)⟩
  refine ((hoare_requireEstablished_connected l).weaken (fun _ _ hs => hs) hSame).bind fun _ => ?_
  refine Hoare.assuming fun hConnected => ?_
  refine Hoare.bind (hoare_get (Q := fun found s => s = l ∧ found = l) fun s hs => ⟨hs, hs⟩)
    fun found => ?_
  refine Hoare.assuming fun hFound => ?_
  rw [hFound]
  have hFrame : Hoare (fun s => s = l) (receiveFrame l.network.receives)
      (fun payload => l.Reads (some payload) []) fun s => ∃ popped, l.Took popped s := by
    refine ((hoare_receiveFrame l l.network.receives).strengthen ?_).weaken (fun _ _ hs => hs) ?_
    · rintro s rfl
      exact ⟨Reads.start s, rfl⟩
    · exact fun s hs => ⟨none, hs.took (.refl s)⟩
  refine hFrame.bind fun frame => ?_
  -- the crypto starts from wherever the loop has ended
  intro mid hMid
  have hThrow : ∀ s, mid.Ran s → ∃ popped, l.Took popped s := fun s hs => ⟨some frame, hMid.took hs⟩
  refine ((hoare_onCrypto_ran (fun old _ => keeps_descends_decrypt old) mid).weaken
    (fun _ _ hs => hs) hThrow).bind (fun payload => ?_) mid rfl
  refine (hoare_fromExcept fun s hs => hThrow s hs.1).weaken ?_ fun _ hs => hs
  rintro value s ⟨⟨hRan, hNone, hSome⟩, hDecode⟩
  refine ⟨hConnected, frame, hMid.took hRan, ?_⟩
  rw [hMid.crypto] at hNone hSome
  unfold Opens
  cases hCrypto : l.connection.crypto with
  | none =>
    rw [← hNone hCrypto]
    exact hDecode
  | some c =>
    obtain ⟨fault, next, hDecrypt⟩ := hSome c hCrypto
    exact ⟨payload, next, decrypt_of_fault hDecrypt, hDecode⟩

/-- An invariant that survives what `ReceiveMarshal` takes. -/
theorem keeps_receiveMarshal_of_took {cipher : Cipher} {I : Link → Prop}
    (h : ∀ l popped s, I l → l.Took popped s → I s) : Keeps I (receiveMarshal cipher) := by
  refine keeps_of_relation (R := fun l s => ∃ popped, l.Took popped s) (fun l => ?_) ?_
  · refine (hoare_receiveMarshal_took cipher l).weaken ?_ fun _ hs => hs
    rintro value s ⟨-, payload, hTook, -⟩
    exact ⟨some payload, hTook⟩
  · rintro l s hl ⟨popped, hTook⟩
    exact h l popped s hl hTook

end Link

end Ithax.Network
