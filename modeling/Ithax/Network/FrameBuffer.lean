import Ithax.Lib.Exceptional
import Ithax.Network.FrameStream

/-!
# The size of the frame buffer

`Push` appends its bytes before it compares the buffer with the bound, so a push that
throws leaves them behind. Calls in any order, with whatever they throw caught.

## Results

* `bufferedBytes_pop_le` — `TryPopFrame` never grows the buffer.
* `buffer_intact_iff`    — the runs in which the buffer stays bounded, and untouched by
  the calls that throw.
-/

namespace Ithax.Network

open Ithax.Lib FrameDecoder

/-- The largest frame with its length prefix. -/
def MAX_BUFFERED_BYTES : Nat := MAX_FRAME_PAYLOAD_BYTES + FRAME_LENGTH_PREFIX_BYTES

/-- A call of the decoder, of which only a pop returns a payload. -/
def frameCall : FrameOp → FrameM (Option Bytes)
  | .push chunk => do
    push chunk
    return none
  | .pop => tryPopFrame

/-- The decoder after some calls on a fresh one, those that throw included. -/
def decoderAfter (ops : List FrameOp) : FrameDecoder := afterCalls frameCall {} ops

/-- A push with room for its bytes. -/
theorem frameCall_push_of_le {d : FrameDecoder} {chunk : Bytes}
    (h : d.bufferedBytes + chunk.length ≤ MAX_BUFFERED_BYTES) :
    frameCall (.push chunk) d = .ok none ⟨d.buffer ++ chunk⟩ := by
  simp only [frameCall, bind, EStateM.bind, push_of_le h]
  rfl

/-- A push without room throws, and has appended its bytes. -/
theorem frameCall_push_of_gt {d : FrameDecoder} {chunk : Bytes}
    (h : MAX_BUFFERED_BYTES < d.bufferedBytes + chunk.length) :
    frameCall (.push chunk) d =
      .error (.tooLarge "buffered frame data exceeds the size limit") ⟨d.buffer ++ chunk⟩ := by
  simp only [frameCall, bind, EStateM.bind, push_of_gt h]

/-- A pop only takes bytes out. -/
theorem bufferedBytes_pop_le (d : FrameDecoder) :
    (finalState (frameCall .pop d)).bufferedBytes ≤ d.bufferedBytes := by
  show (finalState (tryPopFrame d)).bufferedBytes ≤ d.bufferedBytes
  unfold tryPopFrame
  -- no length yet
  by_cases hPrefix : d.buffer.length < FRAME_LENGTH_PREFIX_BYTES
  · rw [if_pos hPrefix]
    exact Nat.le_refl _
  rw [if_neg hPrefix]
  -- a length above the limit throws
  by_cases hLong : leNat (d.buffer.take FRAME_LENGTH_PREFIX_BYTES) > MAX_FRAME_PAYLOAD_BYTES
  · simp only [hLong, if_true]
    exact Nat.le_refl _
  simp only [hLong, if_false]
  -- a payload that is not there yet
  by_cases hShort : d.buffer.length <
      FRAME_LENGTH_PREFIX_BYTES + leNat (d.buffer.take FRAME_LENGTH_PREFIX_BYTES)
  · rw [if_pos hShort]
    exact Nat.le_refl _
  · rw [if_neg hShort]
    show (d.buffer.drop _).length ≤ d.buffer.length
    rw [List.length_drop]
    exact Nat.sub_le _ _

/-- A pop that throws has not touched the buffer. -/
theorem frameCall_pop_error {d d' : FrameDecoder} {e : FrameError}
    (h : frameCall .pop d = .error e d') : d' = d := by
  have hPop : tryPopFrame d = .error e d' := h
  unfold tryPopFrame at hPop
  by_cases hPrefix : d.buffer.length < FRAME_LENGTH_PREFIX_BYTES
  · rw [if_pos hPrefix] at hPop
    cases hPop
  rw [if_neg hPrefix] at hPop
  by_cases hLong : leNat (d.buffer.take FRAME_LENGTH_PREFIX_BYTES) > MAX_FRAME_PAYLOAD_BYTES
  · simp only [hLong, if_true] at hPop
    cases hPop
    rfl
  simp only [hLong, if_false] at hPop
  by_cases hShort : d.buffer.length <
      FRAME_LENGTH_PREFIX_BYTES + leNat (d.buffer.take FRAME_LENGTH_PREFIX_BYTES)
  · rw [if_pos hShort] at hPop
    cases hPop
  · rw [if_neg hShort] at hPop
    cases hPop

/-- Every push of the run finds room for its bytes beside those that are buffered. -/
def PushesFit (ops : List FrameOp) : Prop :=
  ∀ done chunk rest, ops = done ++ .push chunk :: rest →
    (decoderAfter done).bufferedBytes + chunk.length ≤ MAX_BUFFERED_BYTES

/-- The first calls of such a run. -/
theorem PushesFit.left {front back : List FrameOp} (h : PushesFit (front ++ back)) :
    PushesFit front := by
  intro done chunk rest hSplit
  refine h done chunk (rest ++ back) ?_
  rw [hSplit, List.append_assoc]
  rfl

/-- One call of such a run keeps the buffer within its bound. -/
theorem bounded_call {d : FrameDecoder} (op : FrameOp)
    (hBound : d.bufferedBytes ≤ MAX_BUFFERED_BYTES)
    (hFits : ∀ chunk, op = .push chunk →
      d.bufferedBytes + chunk.length ≤ MAX_BUFFERED_BYTES) :
    (finalState (frameCall op d)).bufferedBytes ≤ MAX_BUFFERED_BYTES := by
  cases op with
  | push chunk =>
    have hRoom := hFits chunk rfl
    rw [frameCall_push_of_le hRoom]
    show (d.buffer ++ chunk).length ≤ MAX_BUFFERED_BYTES
    rw [List.length_append]
    exact hRoom
  | pop => exact Nat.le_trans (bufferedBytes_pop_le d) hBound

/-- The buffer stays within its bound, call by call. -/
theorem bounded_of_pushesFit {ops : List FrameOp} (h : PushesFit ops) :
    (decoderAfter ops).bufferedBytes ≤ MAX_BUFFERED_BYTES := by
  refine afterCalls_invariant frameCall (I := fun d => d.bufferedBytes ≤ MAX_BUFFERED_BYTES)
    (Nat.zero_le _) ?_
  intro done op rest hSplit hBound
  refine bounded_call op hBound ?_
  rintro chunk rfl
  exact h done chunk rest hSplit

/-- The buffer stays bounded, and as it was in calls that throw, exactly in the runs
whose pushes all fit. -/
theorem buffer_intact_iff (ops : List FrameOp) :
    (∀ done op rest, ops = done ++ op :: rest →
      (decoderAfter (done ++ [op])).bufferedBytes ≤
        MAX_FRAME_PAYLOAD_BYTES + FRAME_LENGTH_PREFIX_BYTES ∧
      ∀ e d, frameCall op (decoderAfter done) = .error e d →
        d.buffer = (decoderAfter done).buffer) ↔
    PushesFit ops := by
  constructor
  · intro hIntact done chunk rest hSplit
    -- a push without room leaves more than the bound behind
    by_contra hOver
    have hAfter := (hIntact done (.push chunk) rest hSplit).1
    rw [decoderAfter, afterCalls_concat] at hAfter
    have hThrows := frameCall_push_of_gt (Nat.not_le.mp hOver)
    rw [decoderAfter] at hThrows hOver
    rw [hThrows] at hAfter
    have hLength : ((afterCalls frameCall {} done).buffer ++ chunk).length ≤ MAX_BUFFERED_BYTES :=
      hAfter
    rw [List.length_append] at hLength
    exact hOver hLength
  · intro hFits done op rest hSplit
    have hUpTo : PushesFit (done ++ [op]) := by
      have hAll : PushesFit (done ++ [op] ++ rest) := by
        rw [List.append_assoc]
        exact hSplit ▸ hFits
      exact hAll.left
    refine ⟨bounded_of_pushesFit hUpTo, ?_⟩
    intro e d hThrows
    cases op with
    | push chunk =>
      rw [frameCall_push_of_le (hFits done chunk rest hSplit)] at hThrows
      cases hThrows
    | pop => rw [frameCall_pop_error hThrows]

/-- One push of a byte more than the bound: it throws, with all its bytes buffered. -/
theorem buffer_overgrown :
    ¬ ∀ ops done op rest, ops = done ++ op :: rest →
      (decoderAfter (done ++ [op])).bufferedBytes ≤
        MAX_FRAME_PAYLOAD_BYTES + FRAME_LENGTH_PREFIX_BYTES ∧
      ∀ e d, frameCall op (decoderAfter done) = .error e d →
        d.buffer = (decoderAfter done).buffer := by
  intro h
  have hLong : MAX_BUFFERED_BYTES < (decoderAfter []).bufferedBytes +
      (List.replicate (MAX_BUFFERED_BYTES + 1) (0 : UInt8)).length := by
    rw [List.length_replicate]
    exact Nat.lt_add_left _ (Nat.lt_succ_self _)
  have hThrows := frameCall_push_of_gt hLong
  have hSame := (h _ [] _ [] rfl).2 _ _ hThrows
  have hEmpty := congrArg List.length hSame
  rw [List.length_append, List.length_replicate] at hEmpty
  omega

end Ithax.Network
