import Ithax.Lib.LittleEndian

/-!
# Frames

`network/framing.cpp`: a frame is a 4-byte little-endian length and the payload.
`FrameDecoder` buffers whatever the socket delivers and hands out frames as they
become complete.

A method that throws keeps what it has already done to the object, so the
methods are `EStateM` programs over the decoder.
-/

namespace Ithax.Network

open Ithax.Lib

/-- The most bytes that a payload may have. -/
def MAX_FRAME_PAYLOAD_BYTES : Nat := 1 * 1024 * 1024
/-- The length is a `std::uint32_t`. -/
def FRAME_LENGTH_PREFIX_BYTES : Nat := 4

/-- The subclasses of `FrameError`, each with its message. -/
inductive FrameError where
  | tooLarge (message : String)
  | truncated (message : String)
  | format (message : String)
  deriving DecidableEq, Repr

/-- The length prefix and the payload. -/
def frameBytes (payload : Bytes) : Bytes :=
  leBytes FRAME_LENGTH_PREFIX_BYTES payload.length ++ payload

/-- `EncodeFrame`: a payload that is too long throws. -/
def encodeFrame (payload : Bytes) : Except FrameError Bytes :=
  if payload.length > MAX_FRAME_PAYLOAD_BYTES then
    .error (.tooLarge "frame payload exceeds the size limit")
  else .ok (frameBytes payload)

/-- `FrameDecoder`: the bytes that have not been popped. -/
structure FrameDecoder where
  buffer : Bytes := []
  deriving DecidableEq, Repr

/-- A method of the decoder. -/
abbrev FrameM := EStateM FrameError FrameDecoder

namespace FrameDecoder

/-- `Push`: the bytes are in the buffer before its size is checked. -/
def push (bytes : Bytes) : FrameM Unit := fun d =>
  let buffer := d.buffer ++ bytes
  if buffer.length > MAX_FRAME_PAYLOAD_BYTES + FRAME_LENGTH_PREFIX_BYTES then
    .error (.tooLarge "buffered frame data exceeds the size limit") ⟨buffer⟩
  else .ok () ⟨buffer⟩

/-- `TryPopFrame`. -/
def tryPopFrame : FrameM (Option Bytes) := fun d =>
  if d.buffer.length < FRAME_LENGTH_PREFIX_BYTES then .ok none d
  else
    let length := leNat (d.buffer.take FRAME_LENGTH_PREFIX_BYTES)
    if length > MAX_FRAME_PAYLOAD_BYTES then
      .error (.tooLarge "frame length exceeds the size limit") d
    else if d.buffer.length < FRAME_LENGTH_PREFIX_BYTES + length then .ok none d
    else
      let payload := (d.buffer.drop FRAME_LENGTH_PREFIX_BYTES).take length
      .ok (some payload) ⟨d.buffer.drop (FRAME_LENGTH_PREFIX_BYTES + length)⟩

/-- `BufferedBytes`. -/
def bufferedBytes (d : FrameDecoder) : Nat := d.buffer.length

end FrameDecoder

open FrameDecoder

-- ---------------------------------------------------------------------------
-- One call
-- ---------------------------------------------------------------------------

/-- The prefix and the payload add up. -/
theorem length_frameBytes (payload : Bytes) :
    (frameBytes payload).length = FRAME_LENGTH_PREFIX_BYTES + payload.length := by
  rw [frameBytes, List.length_append, length_leBytes]

/-- `Push` within the limit appends. -/
theorem push_of_le {d : FrameDecoder} {bytes : Bytes}
    (h : d.bufferedBytes + bytes.length ≤
      MAX_FRAME_PAYLOAD_BYTES + FRAME_LENGTH_PREFIX_BYTES) :
    push bytes d = .ok () ⟨d.buffer ++ bytes⟩ := by
  refine if_neg ?_
  rw [List.length_append]
  exact Nat.not_lt.mpr h

/-- Beyond the limit it throws, with the bytes in the buffer. -/
theorem push_of_gt {d : FrameDecoder} {bytes : Bytes}
    (h : MAX_FRAME_PAYLOAD_BYTES + FRAME_LENGTH_PREFIX_BYTES <
      d.bufferedBytes + bytes.length) :
    push bytes d = .error (.tooLarge "buffered frame data exceeds the size limit")
      ⟨d.buffer ++ bytes⟩ := by
  refine if_pos ?_
  rw [List.length_append]
  exact h

/-- The frames of `payloads` that are complete in the first `n` bytes of their
stream. -/
def completeFrames : List Bytes → Nat → List Bytes
  | [], _ => []
  | payload :: payloads, n =>
    if FRAME_LENGTH_PREFIX_BYTES + payload.length ≤ n then
      payload :: completeFrames payloads (n - (FRAME_LENGTH_PREFIX_BYTES + payload.length))
    else []

/-- The first frame is complete, and the others are counted from its end. -/
theorem completeFrames_cons (payload : Bytes) (payloads : List Bytes) (n : Nat) :
    completeFrames (payload :: payloads) ((frameBytes payload).length + n) =
      payload :: completeFrames payloads n := by
  rw [completeFrames, length_frameBytes, if_pos (Nat.le_add_right _ _),
    Nat.add_sub_cancel_left]

/-- The stream a peer writes for `payloads`. -/
def frameStream (payloads : List Bytes) : Bytes := payloads.flatMap frameBytes

/-- The payloads a peer may frame. -/
def WithinLimit (payloads : List Bytes) : Prop :=
  ∀ payload ∈ payloads, payload.length ≤ MAX_FRAME_PAYLOAD_BYTES

section Pop

variable {payload rest : Bytes} {d : FrameDecoder}
  (hLimit : payload.length ≤ MAX_FRAME_PAYLOAD_BYTES)
  (hBuffer : d.buffer <+: frameBytes payload ++ rest)

include hLimit hBuffer

/-- The length a decoder reads off the front of a legal stream. -/
theorem leNat_take_buffer (hPrefix : FRAME_LENGTH_PREFIX_BYTES ≤ d.buffer.length) :
    leNat (d.buffer.take FRAME_LENGTH_PREFIX_BYTES) = payload.length := by
  have hTake : d.buffer.take FRAME_LENGTH_PREFIX_BYTES =
      leBytes FRAME_LENGTH_PREFIX_BYTES payload.length := by
    obtain ⟨tail, hTail⟩ := hBuffer
    have hSame : (d.buffer ++ tail).take FRAME_LENGTH_PREFIX_BYTES =
        d.buffer.take FRAME_LENGTH_PREFIX_BYTES := List.take_append_of_le_length hPrefix
    rw [← hSame, hTail, frameBytes, List.append_assoc,
      List.take_left' (length_leBytes _ _)]
  rw [hTake, leNat_leBytes_of_lt]
  simp only [MAX_FRAME_PAYLOAD_BYTES] at hLimit
  simp only [FRAME_LENGTH_PREFIX_BYTES]
  omega

/-- A frame that is not complete yet stays in the buffer. -/
theorem tryPopFrame_incomplete
    (hShort : d.buffer.length < FRAME_LENGTH_PREFIX_BYTES + payload.length) :
    tryPopFrame d = .ok none d := by
  rw [tryPopFrame]
  by_cases hPrefix : d.buffer.length < FRAME_LENGTH_PREFIX_BYTES
  · rw [if_pos hPrefix]
  · rw [if_neg hPrefix]
    simp only [leNat_take_buffer hLimit hBuffer (Nat.le_of_not_lt hPrefix)]
    rw [if_neg (Nat.not_lt.mpr hLimit), if_pos hShort]

/-- A complete frame is handed out and leaves the rest of the buffer. -/
theorem tryPopFrame_complete
    (hFull : FRAME_LENGTH_PREFIX_BYTES + payload.length ≤ d.buffer.length) :
    ∃ tail, d.buffer = frameBytes payload ++ tail ∧ tail <+: rest ∧
      tryPopFrame d = .ok (some payload) ⟨tail⟩ := by
  have hPrefix : FRAME_LENGTH_PREFIX_BYTES ≤ d.buffer.length :=
    le_trans (Nat.le_add_right _ _) hFull
  -- the buffer reaches past the frame, so the frame is a prefix of it
  have hFrame : frameBytes payload <+: d.buffer :=
    List.prefix_of_prefix_length_le (List.prefix_append _ _) hBuffer
      (by rw [length_frameBytes]; exact hFull)
  obtain ⟨tail, hTail⟩ := hFrame
  have hPayload : (d.buffer.drop FRAME_LENGTH_PREFIX_BYTES).take payload.length =
      payload := by
    rw [← hTail, frameBytes, List.append_assoc, List.drop_left' (length_leBytes _ _),
      List.take_left]
  have hRest : d.buffer.drop (FRAME_LENGTH_PREFIX_BYTES + payload.length) = tail := by
    rw [← hTail, List.drop_left' (length_frameBytes payload)]
  refine ⟨tail, hTail.symm, ?_, ?_⟩
  · rw [← hTail] at hBuffer
    exact (List.prefix_append_right_inj _).mp hBuffer
  · rw [tryPopFrame, if_neg (Nat.not_lt.mpr hPrefix)]
    simp only [leNat_take_buffer hLimit hBuffer hPrefix]
    rw [if_neg (Nat.not_lt.mpr hLimit), if_neg (Nat.not_lt.mpr hFull), hPayload, hRest]

end Pop

/-- What `TryPopFrame` does on the front of a legal stream: it hands out the next
payload, or no frame is complete and nothing changes. -/
theorem tryPopFrame_spec {payloads : List Bytes} {d : FrameDecoder}
    (hLimit : WithinLimit payloads) (hBuffer : d.buffer <+: frameStream payloads) :
    (tryPopFrame d = .ok none d ∧ completeFrames payloads d.bufferedBytes = []) ∨
    ∃ payload rest tail, payloads = payload :: rest ∧
      d.buffer = frameBytes payload ++ tail ∧ tail <+: frameStream rest ∧
      tryPopFrame d = .ok (some payload) ⟨tail⟩ := by
  cases payloads with
  | nil =>
    have hEmpty : d.buffer = [] := List.prefix_nil.mp hBuffer
    refine Or.inl ⟨?_, rfl⟩
    rw [tryPopFrame, hEmpty, if_pos (by decide)]
  | cons payload rest =>
    have hHead := hLimit payload List.mem_cons_self
    have hFront : d.buffer <+: frameBytes payload ++ frameStream rest := hBuffer
    rcases Nat.lt_or_ge d.buffer.length (FRAME_LENGTH_PREFIX_BYTES + payload.length)
      with hShort | hFull
    · refine Or.inl ⟨tryPopFrame_incomplete hHead hFront hShort, ?_⟩
      exact if_neg (Nat.not_le.mpr hShort)
    · obtain ⟨tail, hSplit, hTail, hPop⟩ := tryPopFrame_complete hHead hFront hFull
      exact Or.inr ⟨payload, rest, tail, rfl, hSplit, hTail, hPop⟩

/-- The frames after the first are within the limit too. -/
theorem WithinLimit.tail {payload : Bytes} {payloads : List Bytes}
    (h : WithinLimit (payload :: payloads)) : WithinLimit payloads :=
  fun p hp => h p (List.mem_cons_of_mem _ hp)

-- ---------------------------------------------------------------------------
-- Popping until no frame is complete
-- ---------------------------------------------------------------------------

/-- At most `fuel` calls of `TryPopFrame`, up to the first that returns nothing. -/
def popFrames : Nat → FrameM (List Bytes)
  | 0 => pure []
  | fuel + 1 => do
    match ← tryPopFrame with
    | none => return []
    | some payload => return payload :: (← popFrames fuel)

/-- Every frame takes bytes from the buffer, so its size is fuel enough. -/
def popUntilNone : FrameM (List Bytes) := fun d => popFrames (d.bufferedBytes + 1) d

/-- Nothing to pop ends the loop. -/
theorem popFrames_none {fuel : Nat} {d d' : FrameDecoder}
    (h : tryPopFrame d = .ok none d') : popFrames (fuel + 1) d = .ok [] d' := by
  simp only [popFrames, bind, EStateM.bind, h]
  rfl

/-- A frame is popped, and the loop goes on. -/
theorem popFrames_some {fuel : Nat} {d d' d'' : FrameDecoder} {payload : Bytes}
    {payloads : List Bytes} (h : tryPopFrame d = .ok (some payload) d')
    (hRest : popFrames fuel d' = .ok payloads d'') :
    popFrames (fuel + 1) d = .ok (payload :: payloads) d'' := by
  simp only [popFrames, bind, EStateM.bind, h, hRest]
  rfl

/-- Popping takes out what is complete and leaves the rest, by induction on the fuel. -/
theorem popFrames_spec : ∀ (fuel : Nat) (payloads : List Bytes) (d : FrameDecoder),
    WithinLimit payloads → d.buffer <+: frameStream payloads → d.bufferedBytes < fuel →
    ∃ rest tail, payloads = completeFrames payloads d.bufferedBytes ++ rest ∧
      d.buffer = frameStream (completeFrames payloads d.bufferedBytes) ++ tail ∧
      tail <+: frameStream rest ∧
      popFrames fuel d = .ok (completeFrames payloads d.bufferedBytes) ⟨tail⟩ ∧
      tryPopFrame ⟨tail⟩ = .ok none ⟨tail⟩
  | 0, _, _, _, _, hFuel => absurd hFuel (Nat.not_lt_zero _)
  | fuel + 1, payloads, d, hLimit, hBuffer, hFuel => by
    rcases tryPopFrame_spec hLimit hBuffer with
      ⟨hPop, hNone⟩ | ⟨payload, rest, tail, rfl, hSplit, hTail, hPop⟩
    · rw [hNone]
      exact ⟨payloads, d.buffer, rfl, rfl, hBuffer, popFrames_none hPop, hPop⟩
    · have hLen : d.bufferedBytes = (frameBytes payload).length + tail.length := by
        rw [bufferedBytes, hSplit, List.length_append]
      have hComplete : completeFrames (payload :: rest) d.bufferedBytes =
          payload :: completeFrames rest tail.length := by
        rw [hLen, completeFrames_cons]
      have hShorter : tail.length < fuel := by
        rw [hLen, length_frameBytes, FRAME_LENGTH_PREFIX_BYTES] at hFuel
        omega
      obtain ⟨rest', tail', hRest, hTail', hPrefix, hPops, hStop⟩ :=
        popFrames_spec fuel rest ⟨tail⟩ hLimit.tail hTail hShorter
      rw [bufferedBytes] at hRest hTail' hPops
      rw [hComplete]
      refine ⟨rest', tail', ?_, ?_, hPrefix, popFrames_some hPop hPops, hStop⟩
      · rw [List.cons_append, ← hRest]
      · rw [hSplit, frameStream, List.flatMap_cons, List.append_assoc]
        exact congrArg _ hTail'

end Ithax.Network
