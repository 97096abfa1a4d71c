import Ithax.Marshal.RoundTrip
import Ithax.Network.Duplex
import Ithax.Network.LinkCalls

/-!
# Sends as the peer sees them

`SendMarshal` encodes, encrypts, frames and writes, and each of the four may throw. The
session crypto moves its vector with the second, so a call that throws after it has moved
on from a peer that will not hear of it; and a write loop that stops leaves the front of a
frame behind. The calls of a run may throw and be caught.

## Results

* `sendMarshal_ends`   — how one call ends.
* `PeerInStep.send`    — what one call leaves of a peer that is in step.
* `sends_atomic_iff`   — the runs that are atomic for the peer.
-/

namespace Ithax.Network

open Ithax.Lib Ithax.Marshal

/-- CBC with PKCS#7 always adds a padding of 1 to 16 bytes. -/
def paddedLength (n : Nat) : Nat := (n / AES_BLOCK_BYTES + 1) * AES_BLOCK_BYTES

/-- A lawful cipher with the lengths of CBC and PKCS#7. -/
structure Cipher.Padded (cipher : Cipher) : Prop extends cipher.Lawful where
  length_encrypt : ∀ {key iv : Bytes} (plaintext : Bytes),
    key.length = AES_KEY_BYTES → iv.length = AES_IV_BYTES →
    (cipher.encrypt key iv plaintext).length = paddedLength plaintext.length

/-- Padding fills the largest frame from one byte below it on. -/
theorem paddedLength_le_iff (n : Nat) :
    paddedLength n ≤ MAX_FRAME_PAYLOAD_BYTES ↔ n < MAX_FRAME_PAYLOAD_BYTES := by
  simp only [paddedLength, AES_BLOCK_BYTES, MAX_FRAME_PAYLOAD_BYTES]
  omega

-- ---------------------------------------------------------------------------
-- The write loop
-- ---------------------------------------------------------------------------

/-- The calls of `send` take `n` bytes before one of them fails. -/
def TakesAll (sends : List Int) (n : Nat) : Prop :=
  ∃ front rest, sends = front ++ rest ∧ (∀ written ∈ front, 0 < written) ∧ (n : Int) ≤ front.sum

/-- The first call of `send` fails. -/
def FirstFails (sends : List Int) : Prop := ∀ written ∈ sends.head?, written ≤ 0

theorem sum_nonneg_of_pos : ∀ {front : List Int}, (∀ written ∈ front, 0 < written) → 0 ≤ front.sum
  | [], _ => Int.le_refl 0
  | written :: front, h => by
    have hFirst := h written List.mem_cons_self
    have hRest := sum_nonneg_of_pos fun w hw => h w (List.mem_cons_of_mem _ hw)
    rw [List.sum_cons]
    omega

theorem takesAll_zero (sends : List Int) : TakesAll sends 0 :=
  ⟨[], sends, rfl, nofun, Int.le_refl 0⟩

theorem not_takesAll_of_firstFails {sends : List Int} {n : Nat} (h : FirstFails sends)
    (hSome : 0 < n) : ¬TakesAll sends n := by
  rintro ⟨front, rest, rfl, hPos, hSum⟩
  cases front with
  | nil =>
    rw [List.sum_nil] at hSum
    omega
  | cons written front =>
    have hFails := h written rfl
    have hTakes := hPos written List.mem_cons_self
    omega

theorem takesAll_cons_iff {written : Int} (hPos : 0 < written) (sends : List Int) (n : Nat)
    (hSome : 0 < n) : TakesAll (written :: sends) n ↔ TakesAll sends (n - written.toNat) := by
  constructor
  · rintro ⟨front, rest, hSplit, hFront, hSum⟩
    cases front with
    | nil =>
      rw [List.sum_nil] at hSum
      omega
    | cons first front =>
      obtain ⟨rfl, rfl⟩ := List.cons.inj hSplit
      have hRest : ∀ w ∈ front, 0 < w := fun w hw => hFront w (List.mem_cons_of_mem _ hw)
      have hNonneg := sum_nonneg_of_pos hRest
      rw [List.sum_cons] at hSum
      exact ⟨front, rest, rfl, hRest, by omega⟩
  · rintro ⟨front, rest, rfl, hFront, hSum⟩
    refine ⟨written :: front, rest, rfl, ?_, ?_⟩
    · intro w hw
      rcases List.mem_cons.mp hw with rfl | hIn
      · exact hPos
      · exact hFront w hIn
    · rw [List.sum_cons]
      omega

/-- The loop writes the whole frame, or it throws with a front of it written. -/
theorem sendLoop_ends (sends : List Int) (bytes : Bytes) :
    (TakesAll sends bytes.length ∧ ∃ rest, Link.sendLoop sends bytes = (bytes, true, rest)) ∨
    ¬TakesAll sends bytes.length ∧ ∃ written rest,
      Link.sendLoop sends bytes = (written, false, rest) ∧
        (written = [] ↔ FirstFails sends) := by
  induction sends generalizing bytes with
  | nil =>
    cases bytes with
    | nil => exact Or.inl ⟨takesAll_zero [], [], rfl⟩
    | cons b bytes =>
      have hFails : FirstFails [] := nofun
      exact Or.inr ⟨not_takesAll_of_firstFails hFails (Nat.succ_pos _), [], [], rfl,
        iff_of_true rfl hFails⟩
  | cons written sends ih =>
    cases bytes with
    | nil => exact Or.inl ⟨takesAll_zero _, written :: sends, rfl⟩
    | cons b bytes =>
      by_cases hStops : written ≤ 0
      · have hFails : FirstFails (written :: sends) := by
          intro w hw
          cases hw
          exact hStops
        refine Or.inr ⟨not_takesAll_of_firstFails hFails (Nat.succ_pos _), [], sends, ?_,
          iff_of_true rfl hFails⟩
        rw [Link.sendLoop, if_pos hStops]
      · have hPos : 0 < written := Int.not_le.mp hStops
        have hIff := takesAll_cons_iff hPos sends (b :: bytes).length (Nat.succ_pos _)
        have hRest := ih ((b :: bytes).drop written.toNat)
        rw [List.length_drop] at hRest
        rcases hRest with ⟨hTakes, rest, hLoop⟩ | ⟨hStuck, out, rest, hLoop, -⟩
        · refine Or.inl ⟨hIff.mpr hTakes, rest, ?_⟩
          rw [Link.sendLoop, if_neg hStops]
          simp only [hLoop, List.take_append_drop]
        · refine Or.inr ⟨fun hTakes => hStuck (hIff.mp hTakes),
            (b :: bytes).take written.toNat ++ out, rest, ?_, ?_⟩
          · rw [Link.sendLoop, if_neg hStops]
            simp only [hLoop]
          · refine iff_of_false ?_ ?_
            · intro hEmpty
              have hLength := congrArg List.length hEmpty
              rw [List.length_append, List.length_take, List.length_cons,
                List.length_nil] at hLength
              omega
            · intro hFails
              exact hStops (hFails written rfl)

-- ---------------------------------------------------------------------------
-- One call
-- ---------------------------------------------------------------------------

namespace Link

/-- The bytes that reached the socket. -/
def wireBytes (l : Link) : Bytes := l.wire.flatMap Transmission.written

/-- `SendMarshal` comes as far as its `Encrypt`, and that returns. -/
def Encrypts (l : Link) (value : Value) (marshaled : Bytes) : Prop :=
  l.connection.connected = true ∧ l.connection.socket ≠ 0 ∧ encode value = .ok marshaled ∧
    ∀ fault, l.network.faults.head? ≠ some (some fault)

variable {cipher : Cipher} {l : Link} {crypto : SessionCrypto} {value : Value}

/-- How `SendMarshal` ends under a session crypto. -/
inductive SendEnds (cipher : Cipher) (l : Link) (crypto : SessionCrypto) (value : Value) :
    EStateM.Result NetworkError Link Unit → Prop where
  | early {e : NetworkError} {l' : Link} (hNever : ∀ marshaled, ¬l.Encrypts value marshaled)
      (hWire : l'.wireBytes = l.wireBytes) (hCrypto : l'.connection.crypto = some crypto) :
      SendEnds cipher l crypto value (.error e l')
  | tooLong {marshaled : Bytes} {e : NetworkError} {l' : Link}
      (hEncrypts : l.Encrypts value marshaled)
      (hLong : MAX_FRAME_PAYLOAD_BYTES < (cipher.encrypt crypto.key crypto.iv marshaled).length)
      (hWire : l'.wireBytes = l.wireBytes)
      (hCrypto : l'.connection.crypto =
        some (crypto.updateIv (cipher.encrypt crypto.key crypto.iv marshaled))) :
      SendEnds cipher l crypto value (.error e l')
  | halfway {marshaled written : Bytes} {e : NetworkError} {l' : Link}
      (hEncrypts : l.Encrypts value marshaled)
      (hFits : (cipher.encrypt crypto.key crypto.iv marshaled).length ≤ MAX_FRAME_PAYLOAD_BYTES)
      (hWritten : written = [] ↔ FirstFails l.network.sends)
      (hWire : l'.wireBytes = l.wireBytes ++ written)
      (hCrypto : l'.connection.crypto =
        some (crypto.updateIv (cipher.encrypt crypto.key crypto.iv marshaled)))
      (hStops : ¬TakesAll l.network.sends
        (frameBytes (cipher.encrypt crypto.key crypto.iv marshaled)).length) :
      SendEnds cipher l crypto value (.error e l')
  | sent {marshaled : Bytes} {l' : Link} (hEncrypts : l.Encrypts value marshaled)
      (hFits : (cipher.encrypt crypto.key crypto.iv marshaled).length ≤ MAX_FRAME_PAYLOAD_BYTES)
      (hTakes : TakesAll l.network.sends
        (frameBytes (cipher.encrypt crypto.key crypto.iv marshaled)).length)
      (hWire : l'.wireBytes =
        l.wireBytes ++ frameBytes (cipher.encrypt crypto.key crypto.iv marshaled))
      (hCrypto : l'.connection.crypto =
        some (crypto.updateIv (cipher.encrypt crypto.key crypto.iv marshaled))) :
      SendEnds cipher l crypto value (.ok () l')

/-- The answer of OpenSSL to the next call, and the link after it. -/
theorem nextFault_ends (l : Link) : ∃ faults, nextFault l =
    .ok l.network.faults.head?.join { l with network := { l.network with faults } } := by
  rcases l with ⟨connection, peer, ⟨lookups, sockets, connects, sends, receives, faults⟩, wire⟩
  cases faults with
  | nil => exact ⟨[], rfl⟩
  | cons fault faults => exact ⟨faults, rfl⟩

theorem wireBytes_snoc (l : Link) (t : Transmission) (connection : Connection) (network : Outside) :
    ({ l with connection, network, wire := l.wire ++ [t] } : Link).wireBytes =
      l.wireBytes ++ t.written := by
  show (l.wire ++ [t]).flatMap Transmission.written = _
  rw [List.flatMap_append, List.flatMap_singleton]
  rfl

theorem sendMarshal_ends (hCrypto : l.connection.crypto = some crypto) (value : Value) :
    SendEnds cipher l crypto value (sendMarshal cipher value l) := by
  unfold sendMarshal
  by_cases hOpen : l.connection.connected = false ∨ l.connection.socket = 0
  · have hRefused := requireEstablished_of_closed hOpen
    rw [bind_of_error hRefused]
    refine .early ?_ rfl hCrypto
    rintro marshaled ⟨hConnected, hSocket, -⟩
    rcases hOpen with hClosed | hNull
    · rw [hConnected] at hClosed
      cases hClosed
    · exact hSocket hNull
  simp only [not_or, Bool.not_eq_false] at hOpen
  rw [bind_of_ok (requireEstablished_of_open hOpen.1 hOpen.2), bind_of_ok (get_run l)]
  cases hEncode : encode value with
  | error e =>
    rw [bind_of_error (fromExcept_error NetworkError.marshal _ l)]
    refine .early ?_ rfl hCrypto
    rintro marshaled ⟨-, -, hOk, -⟩
    rw [hEncode] at hOk
    cases hOk
  | ok marshaled =>
    rw [bind_of_ok (fromExcept_ok NetworkError.marshal _ l)]
    obtain ⟨faults, hFault⟩ := nextFault_ends l
    have hRun : onCrypto marshaled (fun fault => SessionCrypto.encrypt cipher fault marshaled) l =
        zoom (fun _ => crypto)
          (fun l crypto => { l with connection := { l.connection with crypto := some crypto } })
          NetworkError.crypto (SessionCrypto.encrypt cipher l.network.faults.head?.join marshaled)
          { l with network := { l.network with faults } } := by
      unfold onCrypto
      rw [bind_of_ok (get_run l), hCrypto]
      simp only
      rw [bind_of_ok hFault]
    cases hJoin : l.network.faults.head?.join with
    | some fault =>
      rw [hJoin] at hRun
      rw [bind_of_error hRun]
      refine .early ?_ rfl rfl
      rintro other ⟨-, -, -, hNoFault⟩
      exact hNoFault fault (Option.join_eq_some_iff.mp hJoin)
    | none =>
      rw [hJoin] at hRun
      have hEncrypts : l.Encrypts value marshaled := by
        refine ⟨hOpen.1, hOpen.2, hEncode, ?_⟩
        intro fault hHead
        rw [hHead] at hJoin
        cases hJoin
      rw [bind_of_ok hRun]
      by_cases hLong :
          MAX_FRAME_PAYLOAD_BYTES < (cipher.encrypt crypto.key crypto.iv marshaled).length
      · rw [encodeFrame, if_pos hLong, bind_of_error
          (fromExcept_error NetworkError.frame _ _)]
        exact .tooLong hEncrypts hLong rfl rfl
      · rw [encodeFrame, if_neg hLong, bind_of_ok
          (fromExcept_ok NetworkError.frame _ _)]
        rw [bind_of_ok (get_run _)]
        rcases sendLoop_ends l.network.sends
            (frameBytes (cipher.encrypt crypto.key crypto.iv marshaled)) with
          ⟨hTakes, rest, hLoop⟩ | ⟨hStuck, written, rest, hLoop, hWritten⟩
        · simp only [hLoop]
          exact .sent hEncrypts (Nat.not_lt.mp hLong) hTakes (wireBytes_snoc _ _ _ _) rfl
        · simp only [hLoop]
          exact .halfway hEncrypts (Nat.not_lt.mp hLong) hWritten (wireBytes_snoc _ _ _ _) rfl
            hStuck

end Link

-- ---------------------------------------------------------------------------
-- The peer
-- ---------------------------------------------------------------------------

/-- The peer decrypts a payload and decodes it. -/
def peerOpens (cipher : Cipher) (crypto : SessionCrypto) (payload : Bytes) :
    Option (Value × SessionCrypto) :=
  match crypto.decrypt cipher none payload with
  | .error _ _ => none
  | .ok plain next =>
    match Marshal.decode plain true with
    | .error _ => none
    | .ok value => some (value, next)

/-- One payload after the other. -/
def peerReads (cipher : Cipher) : SessionCrypto → List Bytes → Option (List Value × SessionCrypto)
  | crypto, [] => some ([], crypto)
  | crypto, payload :: payloads => do
    let (value, next) ← peerOpens cipher crypto payload
    let (values, last) ← peerReads cipher next payloads
    return (value :: values, last)

/-- The peer takes the stream apart into frames, with nothing left over, and opens them: it
has the values then, and `crypto` is its session crypto too. -/
def PeerObtains (cipher : Cipher) (start : SessionCrypto) (stream : Bytes) (values : List Value)
    (crypto : Option SessionCrypto) : Prop :=
  ∃ payloads last, popUntilNone ⟨stream⟩ = .ok payloads ⟨[]⟩ ∧
    peerReads cipher start payloads = some (values, last) ∧ crypto = some last

theorem peerReads_concat {cipher : Cipher} {payloads : List Bytes} {start last next : SessionCrypto}
    {values : List Value} {payload : Bytes} {value : Value}
    (hReads : peerReads cipher start payloads = some (values, last))
    (hOpens : peerOpens cipher last payload = some (value, next)) :
    peerReads cipher start (payloads ++ [payload]) = some (values ++ [value], next) := by
  induction payloads generalizing start values with
  | nil =>
    cases hReads
    simp [peerReads, hOpens]
  | cons first payloads ih =>
    obtain ⟨⟨v, mid⟩, hFirst, hRest⟩ := Option.bind_eq_some_iff.mp hReads
    obtain ⟨⟨vs, last'⟩, hTail, hEq⟩ := Option.bind_eq_some_iff.mp hRest
    cases hEq
    have hMore := ih hTail
    simp [peerReads, hFirst, hMore]

/-- What the peer takes off a stream of frames. -/
theorem popUntilNone_frameStream {payloads : List Bytes} (hLimit : WithinLimit payloads) :
    popUntilNone ⟨frameStream payloads⟩ = .ok payloads ⟨[]⟩ := by
  obtain ⟨rest, tail, -, hTail, -, hPops, -⟩ := popFrames_spec
    ((frameStream payloads).length + 1) payloads ⟨frameStream payloads⟩ hLimit
    (List.prefix_refl _) (Nat.lt_succ_self _)
  have hAll : completeFrames payloads (frameStream payloads).length = payloads := by
    have hFront := completeFrames_append [] 0 payloads
    rw [List.append_nil, Nat.add_zero] at hFront
    rw [hFront, completeFrames, List.append_nil]
  have hNone : tail = [] := by
    rw [FrameDecoder.bufferedBytes, hAll] at hTail
    exact List.self_eq_append_right.mp hTail
  rw [FrameDecoder.bufferedBytes, hAll, hNone] at hPops
  exact hPops

/-- A peer in the sender's state opens what the sender encrypted. -/
theorem peerOpens_encrypt {cipher : Cipher} (hCipher : cipher.Lawful) (crypto : SessionCrypto)
    {value : Value} {marshaled : Bytes} (hEncode : encode value = .ok marshaled)
    (hFits : marshaled.length ≤ MAX_STREAM_BYTES) :
    peerOpens cipher crypto (cipher.encrypt crypto.key crypto.iv marshaled) =
      some (value.stored, crypto.updateIv (cipher.encrypt crypto.key crypto.iv marshaled)) := by
  rw [peerOpens, hCipher.decrypt_eq crypto marshaled]
  simp only [Marshal.decode_stored hEncode hFits]

-- ---------------------------------------------------------------------------
-- Runs
-- ---------------------------------------------------------------------------

/-- The link after some calls, those that throw included. -/
def afterSends (cipher : Cipher) (l : Link) (values : List Value) : Link :=
  afterCalls (Link.sendMarshal cipher) l values

/-- The values whose `SendMarshal` returned. -/
def returned (cipher : Cipher) : Link → List Value → List Value
  | _, [] => []
  | l, value :: values =>
    match Link.sendMarshal cipher value l with
    | .ok _ l' => value :: returned cipher l' values
    | .error _ l' => returned cipher l' values

section Runs

variable {cipher : Cipher} {l : Link} {values : List Value} {value : Value}

/-- The calls after `done` go on where `done` left the link. -/
theorem returned_append (l : Link) (done rest : List Value) :
    returned cipher l (done ++ rest) =
      returned cipher l done ++ returned cipher (afterSends cipher l done) rest := by
  induction done generalizing l with
  | nil => rfl
  | cons first done ih =>
    cases hFirst : Link.sendMarshal cipher first l with
    | ok u next =>
      have hNext : afterSends cipher l (first :: done) = afterSends cipher next done := by
        simp only [afterSends, afterCalls, List.foldl_cons, hFirst, finalState]
      simp only [List.cons_append, returned, hFirst, hNext, ih next]
    | error e next =>
      have hNext : afterSends cipher l (first :: done) = afterSends cipher next done := by
        simp only [afterSends, afterCalls, List.foldl_cons, hFirst, finalState]
      simp only [List.cons_append, returned, hFirst, hNext, ih next]

theorem returned_concat_of_ok {l' : Link} (values : List Value)
    (h : Link.sendMarshal cipher value (afterSends cipher l values) = .ok () l') :
    returned cipher l (values ++ [value]) = returned cipher l values ++ [value] := by
  rw [returned_append, returned, h]
  rfl

theorem returned_concat_of_error {e : NetworkError} {l' : Link} (values : List Value)
    (h : Link.sendMarshal cipher value (afterSends cipher l values) = .error e l') :
    returned cipher l (values ++ [value]) = returned cipher l values := by
  rw [returned_append, returned, h]
  exact List.append_nil _

/-- After any of the calls of a run the peer has the values that were returned for, and a call
that throws leaves the wire and the session crypto as they were. -/
def SendsAtomic (cipher : Cipher) (start : SessionCrypto) (l : Link) (values : List Value) : Prop :=
  ∀ done rest, values = done ++ rest →
    PeerObtains cipher start (afterSends cipher l done).wireBytes (returned cipher l done)
      (afterSends cipher l done).connection.crypto ∧
    ∀ value later, rest = value :: later → ∀ e l',
      Link.sendMarshal cipher value (afterSends cipher l done) = .error e l' →
        l'.wireBytes = (afterSends cipher l done).wireBytes ∧
        l'.connection.crypto = (afterSends cipher l done).connection.crypto

/-- A call that comes as far as its `Encrypt` sends the whole frame of a value that survives
the marshal format. Otherwise it throws; that does no harm only if nothing of the frame was
written and the last block of the ciphertext happens to be the vector that was there. -/
def SendsWhole (cipher : Cipher) (l : Link) (value : Value) : Prop :=
  ∀ crypto marshaled, l.connection.crypto = some crypto → l.Encrypts value marshaled →
    (marshaled.length < MAX_FRAME_PAYLOAD_BYTES ∧
      TakesAll l.network.sends (FRAME_LENGTH_PREFIX_BYTES + paddedLength marshaled.length) ∧
      value.stored = value) ∨
    (MAX_FRAME_PAYLOAD_BYTES ≤ marshaled.length ∨ FirstFails l.network.sends) ∧
      crypto.updateIv (cipher.encrypt crypto.key crypto.iv marshaled) = crypto

/-- The stream so far is frames of the returned values, and the peer's session crypto after
them is the sender's. -/
def PeerInStep (cipher : Cipher) (start : SessionCrypto) (l : Link) (values : List Value) : Prop :=
  ∃ payloads last, (afterSends cipher l values).wireBytes = frameStream payloads ∧
    WithinLimit payloads ∧ peerReads cipher start payloads = some (returned cipher l values, last) ∧
    (afterSends cipher l values).connection.crypto = some last

variable {start : SessionCrypto}

theorem PeerInStep.obtains (h : PeerInStep cipher start l values) :
    PeerObtains cipher start (afterSends cipher l values).wireBytes (returned cipher l values)
      (afterSends cipher l values).connection.crypto := by
  obtain ⟨payloads, last, hWire, hLimit, hReads, hCrypto⟩ := h
  refine ⟨payloads, last, ?_, hReads, hCrypto⟩
  rw [hWire]
  exact popUntilNone_frameStream hLimit

/-- The frame of a call that returned, as the peer reads it. -/
theorem PeerInStep.snoc (hCipher : cipher.Padded) {payloads : List Bytes} {last : SessionCrypto}
    {marshaled : Bytes} {sent : List Value} (hLimit : WithinLimit payloads)
    (hReads : peerReads cipher start payloads = some (sent, last))
    (hEncode : encode value = .ok marshaled)
    (hFits : (cipher.encrypt last.key last.iv marshaled).length ≤ MAX_FRAME_PAYLOAD_BYTES) :
    WithinLimit (payloads ++ [cipher.encrypt last.key last.iv marshaled]) ∧
    peerReads cipher start (payloads ++ [cipher.encrypt last.key last.iv marshaled]) =
      some (sent ++ [value.stored],
        last.updateIv (cipher.encrypt last.key last.iv marshaled)) := by
  constructor
  · intro payload hMem
    rcases List.mem_append.mp hMem with hOld | hNew
    · exact hLimit payload hOld
    · rw [List.mem_singleton.mp hNew]
      exact hFits
  · have hShort : marshaled.length < MAX_FRAME_PAYLOAD_BYTES := by
      rw [hCipher.length_encrypt marshaled last.key_length last.iv_length] at hFits
      exact (paddedLength_le_iff _).mp hFits
    exact peerReads_concat hReads
      (peerOpens_encrypt hCipher.toLawful last hEncode (Nat.le_of_lt hShort))

/-- One call of the condition keeps the peer in step, and does nothing if it throws. -/
theorem PeerInStep.send (hCipher : cipher.Padded) (h : PeerInStep cipher start l values)
    (hWhole : SendsWhole cipher (afterSends cipher l values) value) :
    PeerInStep cipher start l (values ++ [value]) ∧
      ∀ e l', Link.sendMarshal cipher value (afterSends cipher l values) = .error e l' →
        l'.wireBytes = (afterSends cipher l values).wireBytes ∧
        l'.connection.crypto = (afterSends cipher l values).connection.crypto := by
  obtain ⟨payloads, last, hWire, hLimit, hReads, hCrypto⟩ := h
  have hLength := fun marshaled =>
    hCipher.length_encrypt marshaled last.key_length last.iv_length
  have hNext : afterSends cipher l (values ++ [value]) =
      finalState (Link.sendMarshal cipher value (afterSends cipher l values)) :=
    afterCalls_concat _ _ _ _
  -- a call that throws and changes nothing
  have hQuiet : ∀ e l', Link.sendMarshal cipher value (afterSends cipher l values) = .error e l' →
      l'.wireBytes = (afterSends cipher l values).wireBytes → l'.connection.crypto = some last →
      PeerInStep cipher start l (values ++ [value]) := by
    intro e l' hRun hSame hKept
    rw [PeerInStep, hNext, hRun, returned_concat_of_error values hRun]
    exact ⟨payloads, last, hSame.trans hWire, hLimit, hReads, hKept⟩
  have hEnds := @Link.sendMarshal_ends cipher _ _ hCrypto value
  generalize hRun : Link.sendMarshal cipher value (afterSends cipher l values) = r at hEnds
  cases hEnds with
  | early hNever hSame hKept =>
    refine ⟨hQuiet _ _ hRun hSame hKept, ?_⟩
    intro e l' hError
    cases hError
    exact ⟨hSame, hKept.trans hCrypto.symm⟩
  | tooLong hEncrypts hLong hSame hMoved =>
    rcases hWhole _ _ hCrypto hEncrypts with ⟨hShort, -, -⟩ | ⟨-, hStill⟩
    · rw [hLength] at hLong
      have hLe := (paddedLength_le_iff _).mpr hShort
      omega
    · rw [hStill] at hMoved
      refine ⟨hQuiet _ _ hRun hSame hMoved, ?_⟩
      intro e l' hError
      cases hError
      exact ⟨hSame, hMoved.trans hCrypto.symm⟩
  | @halfway marshaled written e l' hEncrypts hFits hWritten hSame hMoved hStops =>
    rw [length_frameBytes, hLength] at hStops
    rw [hLength, paddedLength_le_iff] at hFits
    rcases hWhole _ _ hCrypto hEncrypts with ⟨-, hTakes, -⟩ | ⟨hLost, hStill⟩
    · exact absurd hTakes hStops
    · have hFirst := hLost.resolve_left (Nat.not_le.mpr hFits)
      rw [hWritten.mpr hFirst, List.append_nil] at hSame
      rw [hStill] at hMoved
      refine ⟨hQuiet _ _ hRun hSame hMoved, ?_⟩
      intro e l' hError
      cases hError
      exact ⟨hSame, hMoved.trans hCrypto.symm⟩
  | @sent marshaled l' hEncrypts hFits hTakes hSame hMoved =>
    obtain ⟨hMore, hAlso⟩ := PeerInStep.snoc hCipher hLimit hReads hEncrypts.2.2.1 hFits
    have hSurvives : value.stored = value := by
      rcases hWhole _ _ hCrypto hEncrypts with ⟨-, -, hStored⟩ | ⟨hLost, -⟩
      · exact hStored
      · rw [hLength, paddedLength_le_iff] at hFits
        have hFirst := hLost.resolve_left (Nat.not_le.mpr hFits)
        rw [length_frameBytes] at hTakes
        exact absurd hTakes (not_takesAll_of_firstFails hFirst (Nat.lt_add_right _ (by decide)))
    rw [hSurvives] at hAlso
    constructor
    · rw [PeerInStep, hNext, hRun, returned_concat_of_ok values hRun]
      refine ⟨_, _, ?_, hMore, hAlso, hMoved⟩
      show l'.wireBytes = _
      rw [hSame, hWire, frameStream_append, frameStream, frameStream, List.flatMap_singleton]
    · intro e l'' hError
      cases hError

/-- Such calls keep the peer in step. -/
theorem peerInStep_of_whole (hCipher : cipher.Padded) (hCrypto : l.connection.crypto = some start)
    (hWire : l.wire = []) (hWhole : ∀ done value rest, values = done ++ value :: rest →
      SendsWhole cipher (afterSends cipher l done) value) : PeerInStep cipher start l values := by
  induction values using List.reverseRecOn with
  | nil =>
    refine ⟨[], start, ?_, nofun, rfl, hCrypto⟩
    show l.wire.flatMap Transmission.written = []
    rw [hWire]
    rfl
  | append_singleton values value ih =>
    refine (PeerInStep.send hCipher (ih ?_) (hWhole values value [] rfl)).1
    intro done other rest hSplit
    exact hWhole done other (rest ++ [value]) (by rw [hSplit, List.append_assoc]; rfl)

theorem sendsAtomic_of_whole (hCipher : cipher.Padded) (hCrypto : l.connection.crypto = some start)
    (hWire : l.wire = []) (hWhole : ∀ done value rest, values = done ++ value :: rest →
      SendsWhole cipher (afterSends cipher l done) value) :
    SendsAtomic cipher start l values := by
  intro done rest hSplit
  have hDone : PeerInStep cipher start l done := by
    refine peerInStep_of_whole hCipher hCrypto hWire ?_
    intro before value after hBefore
    refine hWhole before value (after ++ rest) ?_
    rw [hSplit, hBefore, List.append_assoc]
    rfl
  refine ⟨hDone.obtains, ?_⟩
  rintro value later rfl
  exact (hDone.send hCipher (hWhole done value later hSplit)).2

/-- A call that is atomic for a peer in step is one of these. -/
theorem sendsWhole_of_atomic (hCipher : cipher.Padded) (h : PeerInStep cipher start l values)
    (hAtomic : SendsAtomic cipher start l (values ++ [value])) :
    SendsWhole cipher (afterSends cipher l values) value := by
  intro crypto marshaled hCrypto hEncrypts
  have hLength := hCipher.length_encrypt marshaled crypto.key_length crypto.iv_length
  have hThrows := (hAtomic values [value] rfl).2 value [] rfl
  have hObtains := (hAtomic (values ++ [value]) [] (List.append_nil _).symm).1
  have hSame : ∀ other, (afterSends cipher l values).Encrypts value other → other = marshaled := by
    intro other hOther
    have hBoth := hOther.2.2.1.symm.trans hEncrypts.2.2.1
    exact Except.ok.inj hBoth
  have hEnds := @Link.sendMarshal_ends cipher _ _ hCrypto value
  generalize hRun : Link.sendMarshal cipher value (afterSends cipher l values) = r at hEnds
  cases hEnds with
  | early hNever => exact absurd hEncrypts (hNever marshaled)
  | tooLong hOther hLong hWire hMoved =>
    obtain rfl := hSame _ hOther
    have hStill := (hThrows _ _ hRun).2
    rw [hMoved, hCrypto] at hStill
    rw [hLength] at hLong
    refine Or.inr ⟨Or.inl ?_, Option.some.inj hStill⟩
    by_contra hShort
    have hLe := (paddedLength_le_iff _).mpr (Nat.not_le.mp hShort)
    omega
  | halfway hOther hFits hWritten hWire hMoved hStops =>
    obtain rfl := hSame _ hOther
    obtain ⟨hKept, hStill⟩ := hThrows _ _ hRun
    rw [hMoved, hCrypto] at hStill
    rw [hWire] at hKept
    exact Or.inr ⟨Or.inr (hWritten.mp (List.append_right_eq_self.mp hKept)), Option.some.inj hStill⟩
  | @sent other l' hOther hFits hTakes hWire hMoved =>
    obtain rfl := hSame _ hOther
    obtain ⟨payloads, last, hStream, hLimit, hReads, hLast⟩ := h
    obtain rfl : last = crypto := Option.some.inj (hLast.symm.trans hCrypto)
    obtain ⟨hMore, hAlso⟩ := PeerInStep.snoc hCipher hLimit hReads hEncrypts.2.2.1 hFits
    have hNext : afterSends cipher l (values ++ [value]) = l' := by
      rw [afterSends, afterCalls_concat]
      exact congrArg finalState hRun
    have hStreamNext : (afterSends cipher l (values ++ [value])).wireBytes =
        frameStream (payloads ++ [cipher.encrypt last.key last.iv other]) := by
      rw [hNext, hWire, hStream, frameStream_append, frameStream, frameStream,
        List.flatMap_singleton]
    obtain ⟨frames, final, hPops, hFinal, -⟩ := hObtains
    rw [hStreamNext, popUntilNone_frameStream hMore] at hPops
    cases hPops
    -- the peer has the value as it is stored
    rw [hAlso, returned_concat_of_ok values hRun] at hFinal
    have hValues := (Prod.mk.inj (Option.some.inj hFinal)).1
    have hStored : value.stored = value := by
      have hLastOf := List.append_cancel_left hValues
      exact (List.cons.inj hLastOf).1
    rw [length_frameBytes, hLength] at hTakes
    rw [hLength, paddedLength_le_iff] at hFits
    exact Or.inl ⟨hFits, hTakes, hStored⟩

theorem sendsWhole_of_atomic_run (hCipher : cipher.Padded)
    (hCrypto : l.connection.crypto = some start) (hWire : l.wire = [])
    (hAtomic : SendsAtomic cipher start l values) : ∀ done value rest,
      values = done ++ value :: rest → SendsWhole cipher (afterSends cipher l done) value := by
  induction values using List.reverseRecOn with
  | nil =>
    intro done value rest hSplit
    exact absurd hSplit.symm (by simp)
  | append_singleton values last ih =>
    have hFront : SendsAtomic cipher start l values := by
      intro done rest hSplit
      obtain ⟨hObtains, hThrows⟩ := hAtomic done (rest ++ [last])
        (by rw [hSplit, List.append_assoc])
      refine ⟨hObtains, ?_⟩
      rintro value later rfl
      exact hThrows value (later ++ [last]) rfl
    have hWhole := ih hFront
    intro done value rest hSplit
    rcases List.eq_nil_or_concat' rest with rfl | ⟨before, final, rfl⟩
    · obtain ⟨rfl, hLast⟩ := List.append_inj' hSplit rfl
      obtain rfl := (List.cons.inj hLast).1
      exact sendsWhole_of_atomic hCipher (peerInStep_of_whole hCipher hCrypto hWire hWhole) hAtomic
    · refine hWhole done value before ?_
      have hBoth : values ++ [last] = (done ++ value :: before) ++ [final] := by
        rw [hSplit, List.append_assoc]
        rfl
      exact (List.append_inj' hBoth rfl).1

/-- A run of `SendMarshal` on an encrypted connection is atomic for the peer exactly if each
of its calls is one of these. -/
theorem sends_atomic_iff (hCipher : cipher.Padded) (hCrypto : l.connection.crypto = some start)
    (hWire : l.wire = []) (values : List Value) :
    SendsAtomic cipher start l values ↔ ∀ done value rest, values = done ++ value :: rest →
      SendsWhole cipher (afterSends cipher l done) value := by
  constructor
  · exact sendsWhole_of_atomic_run hCipher hCrypto hWire
  · exact sendsAtomic_of_whole hCipher hCrypto hWire

end Runs

theorem xorCipher_padded : xorCipher.Padded where
  toLawful := xorCipher_lawful
  length_encrypt plaintext _ _ := by
    show (chainEncrypt _ _ _).length = _
    rw [length_chainEncrypt, length_pad, padLength, paddedLength, AES_BLOCK_BYTES]
    omega

/-- An encrypted connection whose socket answers as `sends` says. -/
def encryptedLink (sends : List Int) : Link where
  connection := { connected := true, crypto := some sessionStart, socket := 1 }
  network := { sends }

theorem sends_atomic_iff_encryptedLink :
    SendsAtomic xorCipher sessionStart (encryptedLink [20, 16]) [.none] ↔
      ∀ done value rest, [Value.none] = done ++ value :: rest →
        SendsWhole xorCipher (afterSends xorCipher (encryptedLink [20, 16]) done) value :=
  sends_atomic_iff xorCipher_padded rfl rfl _

/-- A socket that takes one byte and then fails: the call throws, with a byte of its frame on
the wire. -/
theorem not_sends_atomic : ¬ ∀ (cipher : Cipher) (start : SessionCrypto) (l : Link)
    (values : List Value), cipher.Padded → l.connection.crypto = some start → l.wire = [] →
      SendsAtomic cipher start l values := by
  intro h
  have hAtomic := h xorCipher sessionStart (encryptedLink [1]) [.none] xorCipher_padded rfl rfl
  have hQuiet := (hAtomic [] [.none] rfl).2 .none [] rfl
  have hByte : (match Link.sendMarshal xorCipher .none (encryptedLink [1]) with
      | .ok _ _ => none
      | .error _ l' => some l'.wireBytes.length) = some 1 := by
    decide +kernel
  split at hByte
  · cases hByte
  · rename_i e l' hRun
    have hNothing : l'.wireBytes = [] := (hQuiet e l' hRun).1
    rw [hNothing] at hByte
    cases hByte

end Ithax.Network
