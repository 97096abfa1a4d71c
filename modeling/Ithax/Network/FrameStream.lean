import Ithax.Network.Framing

/-!
# A stream of frames, cut into chunks

What comes out of a `FrameDecoder` that is fed a legal stream piece by piece: the
payloads in their order, whatever the pieces are.

`receiveReads` is the receive discipline of `Connection::ReceiveMarshal`. `Push`
bounds everything that is buffered by the size of one largest frame, so the
discipline depends on where the socket cuts the stream (`ReadsFit`).
-/

namespace Ithax.Network

open Ithax.Lib FrameDecoder

/-- The stream of two series of frames. -/
theorem frameStream_append (front back : List Bytes) :
    frameStream (front ++ back) = frameStream front ++ frameStream back :=
  List.flatMap_append

/-- The frames in front of a position do not count towards what follows them. -/
theorem completeFrames_append (rest : List Bytes) (n : Nat) :
    ∀ front : List Bytes,
      completeFrames (front ++ rest) ((frameStream front).length + n) =
        front ++ completeFrames rest n
  | [] => by
    rw [frameStream, List.flatMap_nil, List.length_nil, Nat.zero_add]
    rfl
  | payload :: front => by
    have hLen : (frameStream (payload :: front)).length + n =
        (frameBytes payload).length + ((frameStream front).length + n) := by
      rw [frameStream, List.flatMap_cons, List.length_append, Nat.add_assoc]
      rfl
    rw [hLen, List.cons_append, completeFrames_cons, completeFrames_append rest n front,
      List.cons_append]

/-- A frame that is encoded is within the limit. -/
theorem encodeFrame_eq_ok {payload frame : Bytes} (h : encodeFrame payload = .ok frame) :
    payload.length ≤ MAX_FRAME_PAYLOAD_BYTES ∧ frame = frameBytes payload := by
  unfold encodeFrame at h
  by_cases hLong : payload.length > MAX_FRAME_PAYLOAD_BYTES
  · rw [if_pos hLong] at h
    cases h
  · rw [if_neg hLong] at h
    cases h
    exact ⟨Nat.le_of_not_lt hLong, rfl⟩

/-- Within the limit every payload has its frame. -/
theorem encodeFrame_of_le {payload : Bytes}
    (h : payload.length ≤ MAX_FRAME_PAYLOAD_BYTES) :
    encodeFrame payload = .ok (frameBytes payload) :=
  if_neg (Nat.not_lt.mpr h)

/-- `EncodeFrame` accepts exactly the payloads within the limit. -/
theorem mapM_encodeFrame_eq_ok : ∀ {payloads frames : List Bytes},
    payloads.mapM encodeFrame = .ok frames →
      WithinLimit payloads ∧ frames.flatten = frameStream payloads
  | [], frames, h => by
    cases h
    exact ⟨fun _ hMem => absurd hMem List.not_mem_nil, rfl⟩
  | payload :: payloads, frames, h => by
    rw [List.mapM_cons] at h
    cases hHead : encodeFrame payload with
    | error e =>
      rw [hHead] at h
      cases h
    | ok frame =>
      cases hTail : payloads.mapM encodeFrame with
      | error e =>
        rw [hHead, hTail] at h
        cases h
      | ok rest =>
        rw [hHead, hTail] at h
        cases h
        obtain ⟨hLe, rfl⟩ := encodeFrame_eq_ok hHead
        obtain ⟨hLimit, hFlat⟩ := mapM_encodeFrame_eq_ok hTail
        refine ⟨List.forall_mem_cons.mpr ⟨hLe, hLimit⟩, ?_⟩
        rw [List.flatten_cons, hFlat]
        rfl

-- ---------------------------------------------------------------------------
-- Any mix of pushes and pops
-- ---------------------------------------------------------------------------

/-- The calls on a decoder. -/
inductive FrameOp where
  | push (chunk : Bytes)
  | pop
  deriving DecidableEq, Repr

/-- The call that threw. -/
inductive FrameStop where
  | pushThrew (e : FrameError)
  | popThrew (e : FrameError)
  deriving DecidableEq, Repr

/-- The decoder and the frames it has returned, oldest first. -/
structure FrameRun where
  decoder : FrameDecoder := {}
  popped : List Bytes := []
  deriving DecidableEq, Repr

/-- One call, with the payload that it pops. -/
def frameStep (s : FrameRun) : FrameOp → Except FrameStop FrameRun
  | .push chunk =>
    match push chunk s.decoder with
    | .ok _ d => .ok { s with decoder := d }
    | .error e _ => .error (.pushThrew e)
  | .pop =>
    match tryPopFrame s.decoder with
    | .ok none d => .ok { s with decoder := d }
    | .ok (some payload) d => .ok { decoder := d, popped := s.popped ++ [payload] }
    | .error e _ => .error (.popThrew e)

/-- The calls in order on a fresh decoder. -/
def frameRun (ops : List FrameOp) : Except FrameStop FrameRun :=
  ops.foldlM frameStep {}

/-- The bytes the calls receive. -/
def pushed (ops : List FrameOp) : Bytes :=
  ops.flatMap fun
    | .push chunk => chunk
    | .pop => []

/-- Where a decoder stands in the stream: what it received is the frames it
returned and its buffer, and the buffer is the front of the frames to come. -/
structure Tracks (payloads : List Bytes) (received : Bytes) (s : FrameRun) : Prop where
  split : received = frameStream s.popped ++ s.decoder.buffer
  ahead : ∃ rest, payloads = s.popped ++ rest ∧ s.decoder.buffer <+: frameStream rest

section Run

variable {payloads : List Bytes} {received : Bytes} {s : FrameRun}

/-- A push appends what comes next in the stream. -/
theorem Tracks.push (h : Tracks payloads received s) {chunk : Bytes}
    (hStream : received ++ chunk <+: frameStream payloads)
    (hKept : ∀ e, frameStep s (.push chunk) ≠ .error (.pushThrew e)) :
    ∃ s', frameStep s (.push chunk) = .ok s' ∧ Tracks payloads (received ++ chunk) s' := by
  obtain ⟨rest, hPayloads, -⟩ := h.ahead
  rcases Nat.lt_or_ge (MAX_FRAME_PAYLOAD_BYTES + FRAME_LENGTH_PREFIX_BYTES)
    (s.decoder.bufferedBytes + chunk.length) with hMore | hFits
  · refine absurd ?_ (hKept (.tooLarge "buffered frame data exceeds the size limit"))
    simp only [frameStep, push_of_gt hMore]
  · refine ⟨{ s with decoder := ⟨s.decoder.buffer ++ chunk⟩ }, ?_, ?_, rest, hPayloads, ?_⟩
    · simp only [frameStep, push_of_le hFits]
    · show received ++ chunk = frameStream s.popped ++ (s.decoder.buffer ++ chunk)
      rw [h.split, List.append_assoc]
    · rw [h.split, List.append_assoc, hPayloads, frameStream_append] at hStream
      exact (List.prefix_append_right_inj _).mp hStream

/-- A pop takes out the next payload, or there is none complete. -/
theorem Tracks.pop (hLimit : WithinLimit payloads) (h : Tracks payloads received s) :
    ∃ s', frameStep s .pop = .ok s' ∧ Tracks payloads received s' := by
  obtain ⟨rest, hPayloads, hBuffer⟩ := h.ahead
  have hRestLimit : WithinLimit rest := fun p hp =>
    hLimit p (hPayloads ▸ List.mem_append_right _ hp)
  rcases tryPopFrame_spec hRestLimit hBuffer with
    ⟨hPop, -⟩ | ⟨payload, rest', tail, rfl, hSplit, hTail, hPop⟩
  · refine ⟨s, ?_, h⟩
    simp only [frameStep, hPop]
  · refine ⟨⟨⟨tail⟩, s.popped ++ [payload]⟩, ?_, ?_, rest', ?_, hTail⟩
    · simp only [frameStep, hPop]
    · rw [h.split, hSplit, frameStream_append, List.append_assoc]
      simp [frameStream]
    · rw [hPayloads, List.append_assoc, List.singleton_append]

/-- Either call. -/
theorem Tracks.step (hLimit : WithinLimit payloads) (h : Tracks payloads received s)
    {op : FrameOp} (hStream : received ++ pushed [op] <+: frameStream payloads)
    (hKept : ∀ e, frameStep s op ≠ .error (.pushThrew e)) :
    ∃ s', frameStep s op = .ok s' ∧ Tracks payloads (received ++ pushed [op]) s' := by
  cases op with
  | push chunk =>
    have hChunk : pushed [.push chunk] = chunk := List.append_nil chunk
    rw [hChunk] at hStream ⊢
    exact h.push hStream hKept
  | pop =>
    have hNothing : pushed [.pop] = [] := rfl
    rw [hNothing, List.append_nil]
    exact h.pop hLimit

/-- The bytes that are pushed, call by call. -/
theorem pushed_cons (received : Bytes) (op : FrameOp) (ops : List FrameOp) :
    received ++ pushed (op :: ops) = received ++ pushed [op] ++ pushed ops := by
  simp [pushed]

/-- A run none of whose pushes throws goes through and keeps track of the
stream. -/
theorem Tracks.run (hLimit : WithinLimit payloads) :
    ∀ (ops : List FrameOp) (received : Bytes) (s : FrameRun),
      Tracks payloads received s → received ++ pushed ops <+: frameStream payloads →
      (∀ e, ops.foldlM frameStep s ≠ .error (.pushThrew e)) →
      ∃ s', ops.foldlM frameStep s = .ok s' ∧ Tracks payloads (received ++ pushed ops) s'
  | [], received, s, h, _, _ => ⟨s, rfl, by simpa [pushed] using h⟩
  | op :: ops, received, s, h, hStream, hKept => by
    rw [pushed_cons] at hStream ⊢
    have hHere : received ++ pushed [op] <+: frameStream payloads :=
      (List.prefix_append _ _).trans hStream
    have hHead : ∀ e, frameStep s op ≠ .error (.pushThrew e) := by
      intro e hThrew
      refine hKept e ?_
      rw [List.foldlM_cons, hThrew]
      rfl
    obtain ⟨s', hOk, hTracks⟩ := h.step hLimit hHere hHead
    rw [List.foldlM_cons, hOk] at hKept ⊢
    exact Tracks.run hLimit ops _ s' hTracks hStream hKept

/-- No push throws while the whole stream fits the buffer. -/
theorem Tracks.not_pushThrew (hLimit : WithinLimit payloads)
    (hShort : (frameStream payloads).length ≤
      MAX_FRAME_PAYLOAD_BYTES + FRAME_LENGTH_PREFIX_BYTES)
    {ops : List FrameOp} (h : Tracks payloads received s)
    (hStream : received ++ pushed ops <+: frameStream payloads) (e : FrameError) :
    ops.foldlM frameStep s ≠ .error (.pushThrew e) := by
  induction ops generalizing received s with
  | nil => simp [pure, Except.pure]
  | cons op ops ih =>
    rw [pushed_cons] at hStream
    have hHere : received ++ pushed [op] <+: frameStream payloads :=
      (List.prefix_append _ _).trans hStream
    have hHead : ∀ e, frameStep s op ≠ .error (.pushThrew e) := by
      intro e hThrew
      cases op with
      | push chunk =>
        have hLength := hHere.length_le
        rw [h.split, List.length_append, List.length_append] at hLength
        have hChunk : pushed [.push chunk] = chunk := List.append_nil chunk
        have hFits : s.decoder.bufferedBytes + chunk.length ≤
            MAX_FRAME_PAYLOAD_BYTES + FRAME_LENGTH_PREFIX_BYTES := by
          simp only [bufferedBytes]
          rw [hChunk] at hLength
          omega
        simp only [frameStep, push_of_le hFits] at hThrew
        cases hThrew
      | pop =>
        obtain ⟨s', hOk, -⟩ := h.pop hLimit
        rw [hOk] at hThrew
        cases hThrew
    obtain ⟨s', hOk, hTracks⟩ := h.step hLimit hHere hHead
    rw [List.foldlM_cons, hOk]
    exact ih hTracks hStream

/-- What is left to pop brings the frames out up to the last complete one. -/
theorem Tracks.popUntilNone (hLimit : WithinLimit payloads)
    (h : Tracks payloads received s) :
    ∃ frames d, popUntilNone s.decoder = .ok frames d ∧ tryPopFrame d = .ok none d ∧
      s.popped ++ frames = completeFrames payloads received.length := by
  obtain ⟨rest, hPayloads, hBuffer⟩ := h.ahead
  have hRestLimit : WithinLimit rest := fun p hp =>
    hLimit p (hPayloads ▸ List.mem_append_right _ hp)
  obtain ⟨-, tail, -, -, -, hPops, hStop⟩ :=
    popFrames_spec _ rest s.decoder hRestLimit hBuffer (Nat.lt_succ_self _)
  refine ⟨_, ⟨tail⟩, hPops, hStop, ?_⟩
  rw [h.split, hPayloads, List.length_append, completeFrames_append]
  rfl

end Run

/-- Framing is transparent to chunking. -/
theorem frameRun_transparent {payloads frames : List Bytes} {ops : List FrameOp}
    (hFrames : payloads.mapM encodeFrame = .ok frames)
    (hStream : pushed ops <+: frames.flatten)
    (hKept : ∀ e, frameRun ops ≠ .error (.pushThrew e)) :
    ∃ s, frameRun ops = .ok s ∧ s.popped <+: payloads ∧
      s.decoder.bufferedBytes + (frameStream s.popped).length = (pushed ops).length ∧
      ∃ remaining d, popUntilNone s.decoder = .ok remaining d ∧
        tryPopFrame d = .ok none d ∧
        s.popped ++ remaining = completeFrames payloads (pushed ops).length := by
  obtain ⟨hLimit, hFlat⟩ := mapM_encodeFrame_eq_ok hFrames
  rw [hFlat] at hStream
  have hStart : Tracks payloads [] {} := ⟨rfl, payloads, rfl, List.nil_prefix⟩
  obtain ⟨s, hRun, hTracks⟩ := Tracks.run hLimit ops [] {} hStart hStream hKept
  rw [List.nil_append] at hTracks
  refine ⟨s, hRun, ?_, ?_, hTracks.popUntilNone hLimit⟩
  · obtain ⟨rest, hPayloads, -⟩ := hTracks.ahead
    exact ⟨rest, hPayloads.symm⟩
  · rw [hTracks.split, List.length_append, Nat.add_comm]
    rfl

/-- However a frame is cut and whenever the decoder is asked, the payload comes out. -/
theorem popped_of_encodeFrame {payload frame : Bytes} {ops : List FrameOp}
    (hFrame : encodeFrame payload = .ok frame) (hPushed : pushed ops = frame) :
    ∃ s remaining d, frameRun ops = .ok s ∧ popUntilNone s.decoder = .ok remaining d ∧
      s.popped ++ remaining = [payload] := by
  obtain ⟨hLe, rfl⟩ := encodeFrame_eq_ok hFrame
  have hStream : frameStream [payload] = frameBytes payload := List.append_nil _
  have hLimit : WithinLimit [payload] := by
    intro p hp
    rw [List.mem_singleton.mp hp]
    exact hLe
  have hStart : Tracks [payload] [] {} := ⟨rfl, [payload], rfl, List.nil_prefix⟩
  have hPrefix : [] ++ pushed ops <+: frameStream [payload] :=
    hStream ▸ hPushed ▸ List.prefix_refl _
  have hShort : (frameStream [payload]).length ≤
      MAX_FRAME_PAYLOAD_BYTES + FRAME_LENGTH_PREFIX_BYTES := by
    rw [hStream, length_frameBytes, Nat.add_comm]
    exact Nat.add_le_add_right hLe _
  obtain ⟨s, hRun, hTracks⟩ := Tracks.run hLimit ops [] {} hStart hPrefix
    (hStart.not_pushThrew hLimit hShort hPrefix)
  obtain ⟨remaining, d, hPops, -, hFrames⟩ := hTracks.popUntilNone hLimit
  refine ⟨s, remaining, d, hRun, hPops, ?_⟩
  rw [hFrames, List.nil_append, hPushed]
  exact completeFrames_cons payload [] 0

/-- Two frames in three chunks: the first cut is inside a length prefix, the second
chunk ends one frame and starts the next. -/
def splitOps : List FrameOp :=
  [.push [1, 0], .pop, .push [0, 0, 7, 0], .pop, .push [], .pop, .push [0, 0]]

theorem frameRun_transparent_splitOps :
    ∃ s, frameRun splitOps = .ok s ∧ s.popped <+: [[7], []] ∧
      s.decoder.bufferedBytes + (frameStream s.popped).length = (pushed splitOps).length ∧
      ∃ remaining d, popUntilNone s.decoder = .ok remaining d ∧
        tryPopFrame d = .ok none d ∧
        s.popped ++ remaining = completeFrames [[7], []] (pushed splitOps).length := by
  have hFrames : [[7], []].mapM encodeFrame = .ok [[1, 0, 0, 0, 7], [0, 0, 0, 0]] := by
    decide
  have hRun : frameRun splitOps = .ok ⟨⟨[0, 0, 0]⟩, [[7]]⟩ := by decide
  refine frameRun_transparent hFrames (by decide) fun e hThrew => ?_
  rw [hRun] at hThrew
  cases hThrew

-- ---------------------------------------------------------------------------
-- The receive discipline
-- ---------------------------------------------------------------------------

/-- `kRecvChunkBytes`. -/
def kRecvChunkBytes : Nat := 64 * 1024

/-- The loop of `ReceiveMarshal` over the chunks the socket delivers, with the
frames it takes: it pops until no frame is complete before it reads the next
chunk. -/
def receiveReads : List Bytes → FrameM (List Bytes)
  | [] => popUntilNone
  | chunk :: chunks => do
    let frames ← popUntilNone
    push chunk
    return frames ++ (← receiveReads chunks)

/-- One read: pop what is complete, then push. -/
theorem receiveReads_cons {chunk : Bytes} {chunks frames : List Bytes}
    {d d' : FrameDecoder} (hPops : popUntilNone d = .ok frames d') :
    receiveReads (chunk :: chunks) d =
      match push chunk d' with
      | .ok _ d'' => (receiveReads chunks).map (frames ++ ·) d''
      | .error e d'' => .error e d'' := by
  simp only [receiveReads, bind, EStateM.bind, hPops]
  cases push chunk d' <;> rfl

/-- The position at which the frame that is under way after `n` bytes began. -/
def frameStart (payloads : List Bytes) (n : Nat) : Nat :=
  (frameStream (completeFrames payloads n)).length

/-- Each read, made after `n` bytes, ends within one largest frame of the start of
the frame that is under way when it is made. -/
def ReadsFit (payloads : List Bytes) : Nat → List Bytes → Prop
  | _, [] => True
  | n, chunk :: chunks =>
    n + chunk.length ≤ frameStart payloads n +
        (MAX_FRAME_PAYLOAD_BYTES + FRAME_LENGTH_PREFIX_BYTES) ∧
      ReadsFit payloads (n + chunk.length) chunks

/-- The frames before the start are counted as a whole. -/
theorem frameStart_append (front rest : List Bytes) (n : Nat) :
    frameStart (front ++ rest) ((frameStream front).length + n) =
      (frameStream front).length + frameStart rest n := by
  rw [frameStart, completeFrames_append, frameStream_append, List.length_append]
  rfl

/-- Whole frames in front move the position of every read. -/
theorem readsFit_append (front rest : List Bytes) :
    ∀ (reads : List Bytes) (n : Nat),
      ReadsFit (front ++ rest) ((frameStream front).length + n) reads ↔
        ReadsFit rest n reads
  | [], _ => Iff.rfl
  | chunk :: chunks, n => by
    rw [ReadsFit, ReadsFit, frameStart_append, Nat.add_assoc, Nat.add_assoc,
      readsFit_append front rest chunks]
    exact and_congr_left' Nat.add_le_add_iff_left

/-- The discipline goes through or `Push` throws, as the reads fit or not. -/
theorem receiveReads_spec : ∀ (reads payloads : List Bytes) (d : FrameDecoder),
    WithinLimit payloads → d.buffer ++ reads.flatten <+: frameStream payloads →
    (ReadsFit payloads d.bufferedBytes reads ∧
      ∃ frames d', receiveReads reads d = .ok frames d') ∨
    (¬ReadsFit payloads d.bufferedBytes reads ∧
      ∃ d', receiveReads reads d =
        .error (.tooLarge "buffered frame data exceeds the size limit") d')
  | [], payloads, d, hLimit, hStream => by
    rw [List.flatten_nil, List.append_nil] at hStream
    obtain ⟨-, tail, -, -, -, hPops, -⟩ :=
      popFrames_spec _ payloads d hLimit hStream (Nat.lt_succ_self _)
    exact Or.inl ⟨trivial, _, _, hPops⟩
  | chunk :: chunks, payloads, d, hLimit, hStream => by
    have hBuffer : d.buffer <+: frameStream payloads :=
      (List.prefix_append _ _).trans hStream
    obtain ⟨rest, tail, hPayloads, hSplit, hTail, hPops, -⟩ :=
      popFrames_spec _ payloads d hLimit hBuffer (Nat.lt_succ_self _)
    set popped := completeFrames payloads d.bufferedBytes with hPopped
    have hPosition : d.bufferedBytes = (frameStream popped).length + tail.length := by
      rw [bufferedBytes, hSplit, List.length_append]
    -- the position of the read, seen from the frame that is under way
    have hRead : d.bufferedBytes + chunk.length ≤ frameStart payloads d.bufferedBytes +
          (MAX_FRAME_PAYLOAD_BYTES + FRAME_LENGTH_PREFIX_BYTES) ↔
        tail.length + chunk.length ≤
          MAX_FRAME_PAYLOAD_BYTES + FRAME_LENGTH_PREFIX_BYTES := by
      rw [frameStart, ← hPopped, hPosition, Nat.add_assoc]
      exact Nat.add_le_add_iff_left
    have hAfter : ReadsFit payloads (d.bufferedBytes + chunk.length) chunks ↔
        ReadsFit rest (tail ++ chunk).length chunks := by
      rw [hPosition, Nat.add_assoc, ← List.length_append]
      conv_lhs => rw [hPayloads]
      exact readsFit_append popped rest chunks _
    rw [receiveReads_cons hPops, ReadsFit, hRead, hAfter]
    rcases Nat.lt_or_ge (MAX_FRAME_PAYLOAD_BYTES + FRAME_LENGTH_PREFIX_BYTES)
      (tail.length + chunk.length) with hMore | hFits
    · rw [push_of_gt (d := ⟨tail⟩) hMore]
      exact Or.inr ⟨fun h => absurd h.1 (Nat.not_le.mpr hMore), _, rfl⟩
    · rw [push_of_le (d := ⟨tail⟩) hFits]
      have hRestLimit : WithinLimit rest := fun p hp =>
        hLimit p (by rw [hPayloads]; exact List.mem_append_right _ hp)
      have hRestStream : tail ++ chunk ++ chunks.flatten <+: frameStream rest := by
        rw [hSplit, List.flatten_cons] at hStream
        rw [hPayloads, frameStream_append, List.append_assoc] at hStream
        rw [List.append_assoc]
        exact (List.prefix_append_right_inj _).mp hStream
      rcases receiveReads_spec chunks rest ⟨tail ++ chunk⟩ hRestLimit hRestStream with
        ⟨hFit, frames, d', hOk⟩ | ⟨hFit, d', hThrew⟩
      · refine Or.inl ⟨⟨hFits, hFit⟩, popped ++ frames, d', ?_⟩
        simp only [EStateM.map, hOk]
      · refine Or.inr ⟨fun h => hFit h.2, d', ?_⟩
        simp only [EStateM.map, hThrew]

/-- Exactly the cuts that fit are received without a frame-too-large error. -/
theorem receiveReads_fits_iff {payloads frames reads : List Bytes}
    (hFrames : payloads.mapM encodeFrame = .ok frames)
    (hStream : reads.flatten <+: frames.flatten) :
    (∀ message d, receiveReads reads {} ≠ .error (.tooLarge message) d) ↔
      ReadsFit payloads 0 reads := by
  obtain ⟨hLimit, hFlat⟩ := mapM_encodeFrame_eq_ok hFrames
  rw [hFlat] at hStream
  rcases receiveReads_spec reads payloads {} hLimit hStream with
    ⟨hFit, received, d', hOk⟩ | ⟨hFit, d', hThrew⟩
  · refine iff_of_true (fun message d h => ?_) hFit
    rw [hOk] at h
    cases h
  · exact iff_of_false (fun h => h _ d' hThrew) hFit

theorem receiveReads_fits_iff_splitReads :
    (∀ message d, receiveReads [[1, 0], [0, 0, 7, 0], [0, 0]] {} ≠
      .error (.tooLarge message) d) ↔
    ReadsFit [[7], []] 0 [[1, 0], [0, 0, 7, 0], [0, 0]] := by
  have hFrames : [[7], []].mapM encodeFrame = .ok [[1, 0, 0, 0, 7], [0, 0, 0, 0]] := by
    decide
  exact receiveReads_fits_iff hFrames (by decide)

/-- A stream delivered in reads of `k` bytes, and what is left after `n` of them. -/
def cutReads (k : Nat) : Nat → Bytes → List Bytes
  | 0, stream => [stream]
  | n + 1, stream => stream.take k :: cutReads k n (stream.drop k)

/-- The reads of a cut stream are the stream. -/
theorem flatten_cutReads (k : Nat) : ∀ (n : Nat) (stream : Bytes),
    (cutReads k n stream).flatten = stream
  | 0, stream => List.append_nil stream
  | n + 1, stream => by
    rw [cutReads, List.flatten_cons, flatten_cutReads k n, List.take_append_drop]

/-- No read of a cut is longer than `k`. -/
theorem length_le_of_mem_cutReads {k : Nat} : ∀ {n : Nat} {stream read : Bytes},
    stream.length ≤ k * (n + 1) → read ∈ cutReads k n stream → read.length ≤ k
  | 0, stream, read, hLen, hMem => by
    rw [cutReads, List.mem_singleton] at hMem
    rw [hMem]
    omega
  | n + 1, stream, read, hLen, hMem => by
    rcases List.mem_cons.mp hMem with rfl | hRest
    · rw [List.length_take]
      exact Nat.min_le_left _ _
    · refine length_le_of_mem_cutReads ?_ hRest
      rw [List.length_drop, Nat.mul_add k (n + 1), Nat.mul_one] at *
      omega

/-- What fitting means for the `i`-th read of such a delivery. -/
theorem ReadsFit.cutReads {payloads : List Bytes} {k : Nat} :
    ∀ {i n start : Nat} {stream : Bytes},
      ReadsFit payloads start (cutReads k n stream) → i < n →
      k * (i + 1) ≤ stream.length →
      start + k * i + k ≤ frameStart payloads (start + k * i) +
        (MAX_FRAME_PAYLOAD_BYTES + FRAME_LENGTH_PREFIX_BYTES)
  | _, 0, _, _, _, hi, _ => absurd hi (Nat.not_lt_zero _)
  | 0, n + 1, start, stream, h, _, hLen => by
    have hTake : (stream.take k).length = k := by
      rw [List.length_take]
      omega
    have hHere := h.1
    rw [hTake] at hHere
    rw [Nat.mul_zero, Nat.add_zero]
    exact hHere
  | i + 1, n + 1, start, stream, h, hi, hLen => by
    have hTake : (stream.take k).length = k := by
      rw [List.length_take, Nat.mul_add] at *
      omega
    have hNext := h.2
    rw [hTake] at hNext
    have hLater := ReadsFit.cutReads (i := i) hNext (Nat.lt_of_succ_lt_succ hi) (by
      rw [List.length_drop, Nat.mul_add k (i + 1)] at *
      omega)
    have hShift : start + k + k * i = start + k * (i + 1) := by
      rw [Nat.mul_add, Nat.mul_one]
      omega
    rw [hShift] at hLater
    exact hLater

/-- Two payloads of exactly the documented limit. -/
def largestPayloads : List Bytes :=
  [List.replicate MAX_FRAME_PAYLOAD_BYTES 0, List.replicate MAX_FRAME_PAYLOAD_BYTES 0]

/-- Read in full chunks, they make `Push` throw: the chunk that ends the first frame
also brings the head of the second. -/
theorem receiveReads_largestPayloads :
    ∃ frames, largestPayloads.mapM encodeFrame = .ok frames ∧
      (cutReads kRecvChunkBytes 32 frames.flatten).flatten = frames.flatten ∧
      (∀ read ∈ cutReads kRecvChunkBytes 32 frames.flatten,
        read.length ≤ kRecvChunkBytes) ∧
      ∃ d, receiveReads (cutReads kRecvChunkBytes 32 frames.flatten) {} =
        .error (.tooLarge "buffered frame data exceeds the size limit") d := by
  have hLargest : (List.replicate MAX_FRAME_PAYLOAD_BYTES (0 : UInt8)).length =
      MAX_FRAME_PAYLOAD_BYTES := List.length_replicate
  have hEncode := encodeFrame_of_le hLargest.le
  have hFrames : largestPayloads.mapM encodeFrame =
      .ok (largestPayloads.map frameBytes) := by
    rw [largestPayloads, List.mapM_cons, List.mapM_cons, List.mapM_nil, hEncode]
    rfl
  obtain ⟨hLimit, hFlat⟩ := mapM_encodeFrame_eq_ok hFrames
  have hTotal : (frameStream largestPayloads).length = 2097160 := by
    rw [frameStream, largestPayloads, List.flatMap_cons, List.flatMap_cons,
      List.flatMap_nil, List.length_append, List.length_append, length_frameBytes,
      hLargest]
    rfl
  -- after sixteen chunks the first frame still lacks four bytes
  have hStart : frameStart largestPayloads (0 + kRecvChunkBytes * 16) = 0 := by
    rw [frameStart, largestPayloads, completeFrames, hLargest, if_neg (by decide)]
    rfl
  refine ⟨_, hFrames, flatten_cutReads _ _ _, fun read hMem => ?_, ?_⟩
  · refine length_le_of_mem_cutReads ?_ hMem
    rw [hFlat, hTotal]
    decide
  · rw [hFlat]
    have hCut : ([] : Bytes) ++
        (cutReads kRecvChunkBytes 32 (frameStream largestPayloads)).flatten <+:
          frameStream largestPayloads := by
      refine ⟨[], ?_⟩
      rw [List.append_nil, List.nil_append, flatten_cutReads]
    rcases receiveReads_spec _ largestPayloads {} hLimit hCut with ⟨hFit, -⟩ | ⟨-, hThrew⟩
    · have hRead := ReadsFit.cutReads (i := 16) hFit (by decide) (by rw [hTotal]; decide)
      rw [show ({} : FrameDecoder).bufferedBytes = 0 from rfl, hStart] at hRead
      exact absurd hRead (by decide)
    · exact hThrew

end Ithax.Network
