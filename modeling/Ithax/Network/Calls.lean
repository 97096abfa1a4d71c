import Ithax.Network.Client
import Ithax.Network.Dispatcher
import Ithax.Network.PacketCodec

/-!
# Calls over the wire

A call goes through two marshal streams: its body is a substream inside the packet. On
the other side `CallRequest::Decode` takes the first substream it finds and defaults what
a body does not have, so a call arrives whole only if every layer keeps its shape.

## Results

* `sendCall_eq`        — `SendCall` sends `callPacket`.
* `decode_received`    — `CallRequest::Decode` of what the wire makes of that packet.
* `length_body_le`     — the body is no longer than the stream around it.
* `call_arrives`       — the whole way of a call, to the handler registered last.
-/

namespace Ithax.Network

open Ithax.Lib Ithax.Marshal

-- ---------------------------------------------------------------------------
-- The packet of a call
-- ---------------------------------------------------------------------------

/-- The body of a call. -/
def callBody (service method : Bytes) (args : List Value) (kwargs : Option Value) : Value :=
  .tuple [.string service, .string method, .tuple args, kwargs.getD .none]

/-- The packet around an encoded body. -/
def packetOfBody (service body : Bytes) : Packet where
  typeString := kCallReqType
  type := .callReq
  source := Client.makeAnyAddress service
  dest := Client.makeAnyAddress (ascii "machoNet")
  payload := some (.tuple [.tuple [.int 0, .subStream body]])

/-- The packet that `SendCall` makes. -/
def callPacket (service method : Bytes) (args : List Value) (kwargs : Option Value) :
    Result Packet := do
  let body ← encode (callBody service method args kwargs)
  return packetOfBody service body

/-- `SendCall`: the packet is built, and sent as a value. -/
theorem sendCall_eq (cipher : Cipher) (service method : Bytes) (args : List Value)
    (kwargs : Option Value) :
    Client.sendCall cipher service method args kwargs = (do
      Client.requireConnected
      let packet ← fromExcept .marshal (callPacket service method args kwargs)
      Client.sendPacket cipher packet) := by
  unfold Client.sendCall callPacket callBody
  cases encode (.tuple [.string service, .string method, .tuple args, kwargs.getD .none]) with
  | ok body => rfl
  | error e => rfl

-- ---------------------------------------------------------------------------
-- Values that arrive as sent
-- ---------------------------------------------------------------------------

/-- No packed cell inside the value is a real or an integer out of range, and no zero
inside it is negative. -/
structure ArrivesAsSent (v : Value) : Prop where
  survives : Survives v
  positiveZero : v.positiveZero = v

/-- What arrives as sent is what the codec stores. -/
theorem ArrivesAsSent.stored {v : Value} (h : ArrivesAsSent v) : v.stored = v :=
  h.survives.stored.trans h.positiveZero

/-- The body of a call arrives as sent when its arguments do. -/
theorem stored_callBody {args : List Value} {kwargs : Option Value} (service method : Bytes)
    (hArgs : ∀ arg ∈ args, ArrivesAsSent arg) (hKwargs : ArrivesAsSent (kwargs.getD .none)) :
    (callBody service method args kwargs).stored = callBody service method args kwargs := by
  have hItems : args.map Value.stored = args := by
    refine (List.map_congr_left fun arg hArg => (hArgs arg hArg).stored).trans ?_
    exact List.map_id' args
  rw [callBody, stored_tuple]
  simp only [List.map_cons, List.map_nil, stored_tuple, hItems, hKwargs.stored]
  rfl

-- ---------------------------------------------------------------------------
-- The body inside the packet
-- ---------------------------------------------------------------------------

/-- The encoding of an item is no longer than that of the tuple. -/
theorem length_le_of_encodeLevels_tuple {levels : Nat} {items : List Value} {bytes : Bytes}
    (item : Value) (hItem : item ∈ items)
    (h : encodeLevels (levels + 1) (.tuple items) = .ok bytes) :
    ∃ inner, encodeLevels levels item = .ok inner ∧ inner.length ≤ bytes.length := by
  change encodeTuple (encodeLevels levels) items = .ok bytes at h
  rw [encodeTuple] at h
  split at h
  · cases h
  · obtain ⟨body, hBody, h⟩ := Checked.bind_eq_ok h
    obtain ⟨enc, hEach, rfl⟩ := encodeEach_eq_ok hBody
    cases h
    refine ⟨enc item, hEach item hItem, ?_⟩
    have hInner : (enc item).length ≤ (items.flatMap enc).length :=
      (List.sublist_flatten_of_mem (List.mem_map_of_mem hItem)).length_le
    rw [List.length_append]
    omega

/-- The body is a part of the bytes of its packet. -/
theorem length_body_le {service body bytes : Bytes}
    (h : encode (packetOfBody service body).encode = .ok bytes) :
    body.length ≤ bytes.length := by
  obtain ⟨object, hObject, h⟩ := Checked.bind_eq_ok h
  cases h
  -- the object, its tuple, the payload, the wrapper
  obtain ⟨args, hArgs, h⟩ := Checked.bind_eq_ok (show encodeObject (encodeLevels 64) _ _ = _
    from hObject)
  cases h
  obtain ⟨payload, hPayload, hLe⟩ := length_le_of_encodeLevels_tuple
    (.tuple [.tuple [.int 0, .subStream body]]) (by simp [packetOfBody]) hArgs
  obtain ⟨wrapper, hWrapper, hLe'⟩ := length_le_of_encodeLevels_tuple _
    (List.mem_singleton_self _) hPayload
  obtain ⟨stream, hStream, hLe''⟩ := length_le_of_encodeLevels_tuple
    (.subStream body) (by simp) hWrapper
  obtain rfl : encodeSubStream body = stream := Except.ok.inj hStream
  have hBody : body.length ≤ (encodeSubStream body).length := by
    rw [encodeSubStream, putSized, List.length_cons, List.length_append]
    omega
  simp only [List.length_cons, List.length_append]
  omega

-- ---------------------------------------------------------------------------
-- The other side
-- ---------------------------------------------------------------------------

/-- A receiver fills in the generation only. -/
theorem received_packetOfBody (service body : Bytes) (generation : UInt64) :
    (packetOfBody service body).received generation =
      { packetOfBody service body with generation } := by
  unfold Packet.received packetOfBody
  simp only [Option.map_some, stored_tuple, List.map_cons, List.map_nil, Option.map_none]
  rfl

/-- Every item of the body is found where it was put. -/
theorem decode_received {service method body : Bytes} {args : List Value}
    {kwargs : Option Value} (generation : UInt64)
    (hBody : Marshal.decode body true = .ok (callBody service method args kwargs)) :
    CallRequest.decode { packetOfBody service body with generation } = .ok {
      service, method, args
      kwargs := if (kwargs.getD .none).isNone then none else some (kwargs.getD .none)
      callId := 0 } := by
  have hFirst : CallRequest.decodeBody { packetOfBody service body with generation } =
      .ok (callBody service method args kwargs) := by
    rw [CallRequest.decodeBody]
    simp only [packetOfBody, CallRequest.firstSubStream, hBody]
  rw [CallRequest.decode, if_neg (by simp [packetOfBody]), hFirst]
  rfl

/-- A call arrives as it was sent, and the handler that was registered last for its
method of its service runs, if there is one. -/
theorem call_arrives {Out : Type} (history : List (Registration Out)) (generation : UInt64)
    {service method : Bytes} {args : List Value} {kwargs : Option Value} {packet : Packet}
    {bytes frame : Bytes} {ops : List FrameOp}
    (hArgs : ∀ arg ∈ args, ArrivesAsSent arg) (hKwargs : ArrivesAsSent (kwargs.getD .none))
    (hPacket : callPacket service method args kwargs = .ok packet)
    (hEncode : Marshal.encode packet.encode = .ok bytes)
    (hFrame : encodeFrame bytes = .ok frame) (hPushed : pushed ops = frame) :
    ∃ s remaining d value received call,
      frameRun ops = .ok s ∧ popUntilNone s.decoder = .ok remaining d ∧
      s.popped ++ remaining = [bytes] ∧ Marshal.decode bytes true = .ok value ∧
      Packet.decode value generation = .ok received ∧
      CallRequest.decode received = .ok call ∧
      call.service = service ∧ call.method = method ∧ call.args = args ∧
      call.kwargs.getD .none = kwargs.getD .none ∧
      match Registration.latest history service method with
      | some handler =>
        (Dispatcher.registered history).dispatch received = .ok (handler call received)
      | none => ∃ message,
        (Dispatcher.registered history).dispatch received = .error (.unknownMethod message) := by
  obtain ⟨body, hBodyEncode, hMake⟩ := Checked.bind_eq_ok hPacket
  obtain rfl : packetOfBody service body = packet := Except.ok.inj hMake
  obtain ⟨hLe, -⟩ := encodeFrame_eq_ok hFrame
  have hFits : bytes.length ≤ MAX_STREAM_BYTES := hLe
  obtain ⟨s, remaining, d, hRun, hPops, hFrames⟩ := popped_of_encodeFrame hFrame hPushed
  have hDocumented : (packetOfBody service body).IsDocumented :=
    ⟨Or.inr (Or.inr (Or.inr rfl)), Or.inr (Or.inr (Or.inr rfl)), rfl,
      by simp [packetOfBody]⟩
  have hReceived := Packet.decode_stored hDocumented generation
  rw [received_packetOfBody] at hReceived
  -- the inner stream
  have hBody : Marshal.decode body true = .ok (callBody service method args kwargs) := by
    rw [← stored_callBody service method hArgs hKwargs]
    exact Marshal.decode_stored hBodyEncode ((length_body_le hEncode).trans hFits)
  have hCall := decode_received generation hBody
  refine ⟨s, remaining, d, _, _, _, hRun, hPops, hFrames, Marshal.decode_stored hEncode hFits,
    hReceived, hCall, rfl, rfl, rfl, ?_, ?_⟩
  · cases hNone : (kwargs.getD .none).isNone with
    | true => exact (isNone_iff.mp hNone).symm
    | false => rfl
  · rw [← Dispatcher.lookup_registered]
    rcases (Dispatcher.registered history).dispatch_of_decode hCall with
      ⟨handler, hLookup, hOk⟩ | ⟨hNone, hError⟩
    · rw [hLookup]
      exact hOk
    · rw [hNone]
      exact hError

/-- A call with an argument and keywords, read a few bytes at a time. -/
def sampleArgs : List Value := [.int 5]

/-- One keyword argument. -/
def sampleKwargs : Option Value := some (.dict [⟨.string (ascii "k"), .bool true⟩])

theorem call_arrives_sampleCall :
    ∃ packet bytes frame, callPacket (ascii "s") (ascii "m") sampleArgs sampleKwargs =
        .ok packet ∧
      Marshal.encode packet.encode = .ok bytes ∧ encodeFrame bytes = .ok frame ∧
      ∃ s remaining d value received call,
        frameRun [.push (frame.take 3), .pop, .push (frame.drop 3)] = .ok s ∧
        popUntilNone s.decoder = .ok remaining d ∧ s.popped ++ remaining = [bytes] ∧
        Marshal.decode bytes true = .ok value ∧ Packet.decode value 1 = .ok received ∧
        CallRequest.decode received = .ok call ∧ call.service = ascii "s" ∧
        call.method = ascii "m" ∧ call.args = sampleArgs ∧
        call.kwargs.getD .none = sampleKwargs.getD .none ∧
        (Dispatcher.registered [.method (ascii "s") (ascii "m") (fun _ _ => 1),
          .method (ascii "s") (ascii "m") (fun _ _ => 2)]).dispatch received = .ok 2 := by
  have hRun : ∃ packet, callPacket (ascii "s") (ascii "m") sampleArgs sampleKwargs = .ok packet ∧
      ∃ bytes, Marshal.encode packet.encode = .ok bytes ∧
        bytes.length ≤ MAX_FRAME_PAYLOAD_BYTES := by decide +kernel
  have hKwargs : ArrivesAsSent (sampleKwargs.getD .none) := by
    refine ⟨.node trivial fun child hChild => ?_, rfl⟩
    simp only [sampleKwargs, Option.getD_some, Value.children, List.flatMap_cons,
      List.flatMap_nil, List.append_nil, List.mem_cons, List.not_mem_nil, or_false] at hChild
    rcases hChild with rfl | rfl
    all_goals exact survives_leaf trivial rfl
  have hArgs : ∀ arg ∈ sampleArgs, ArrivesAsSent arg := by
    intro arg hArg
    rw [List.mem_singleton.mp hArg]
    exact ⟨survives_leaf trivial rfl, rfl⟩
  obtain ⟨packet, hPacket, bytes, hEncode, hFits⟩ := hRun
  have hFrame := encodeFrame_of_le hFits
  refine ⟨packet, bytes, _, hPacket, hEncode, hFrame, ?_⟩
  exact call_arrives [.method (ascii "s") (ascii "m") (fun _ _ => 1),
    .method (ascii "s") (ascii "m") (fun _ _ => 2)] 1 hArgs hKwargs hPacket hEncode hFrame
    (by simp [pushed])

end Ithax.Network
