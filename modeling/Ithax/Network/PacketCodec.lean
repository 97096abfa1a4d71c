import Ithax.Marshal.RoundTrip
import Ithax.Network.Packet

/-!
# Packets over the wire

`Packet::Encode`, the marshal codec, and `Packet::Decode`. An address of each kind has
the fields of its kind in the documentation; `Any` is documented with a service and a
call id, but `Encode` writes its object id in the place of the call id and `Decode`
reads it back into the object id.

## Results

* `Address.decode_encoded`   — what `Decode` makes of an encoded address.
* `Packet.decode_stored`     — and of an encoded packet, with the marshal codec in between.
* `packet_roundTrip_iff`     — the packets that come back with their documented fields.
-/

namespace Ithax.Network

open Ithax.Lib Ithax.Marshal

-- ---------------------------------------------------------------------------
-- Fields
-- ---------------------------------------------------------------------------

theorem unlessNone_stringOrNone (s : Bytes) :
    unlessNone (stringOrNone s) [] requireString = .ok s := by
  unfold stringOrNone
  by_cases hEmpty : s = []
  · rw [if_pos hEmpty, hEmpty]
    rfl
  · rw [if_neg hEmpty]
    rfl

theorem unlessNone_intOrNone (i : Int64) :
    unlessNone (intOrNone i) 0 requireInt = .ok i := by
  unfold intOrNone
  by_cases hZero : i = 0
  · rw [if_pos hZero, hZero]
    rfl
  · rw [if_neg hZero]
    rfl

theorem stored_stringOrNone (s : Bytes) : (stringOrNone s).stored = stringOrNone s := by
  unfold stringOrNone
  split <;> rfl

theorem stored_intOrNone (i : Int64) : (intOrNone i).stored = intOrNone i := by
  unfold intOrNone
  split <;> rfl

-- ---------------------------------------------------------------------------
-- Addresses
-- ---------------------------------------------------------------------------

namespace Address

/-- The kinds of address in the documentation. -/
def IsDocumented (address : Address) : Prop :=
  address.type = .node ∨ address.type = .client ∨ address.type = .broadcast ∨
    address.type = .any

/-- The two addresses are of one kind and agree in its documented fields. -/
def SameFields (a b : Address) : Prop :=
  a.type = b.type ∧
    match a.type with
    | .node | .client => a.objectId = b.objectId ∧ a.service = b.service ∧ a.callId = b.callId
    | .broadcast => a.service = b.service ∧ a.broadcastIdtype = b.broadcastIdtype
    | .any => a.service = b.service ∧ a.callId = b.callId
    | .invalid | .other _ _ => True

/-- What `Decode` makes of the encoded address. -/
def kept (address : Address) : Address :=
  match address.type with
  | .any => { type := .any, service := address.service, objectId := address.objectId }
  | .node | .client => { address with broadcastIdtype := [] }
  | .broadcast =>
    { type := .broadcast, service := address.service, broadcastIdtype := address.broadcastIdtype }
  | .invalid | .other _ _ => { type := address.type }

/-- An address object whose type is that of an enumerator. -/
theorem decode_object (type : AddressType) (second third : Value) (rest : List Value) :
    decode (.object kAddressTypeName (.tuple (.int type.toInt :: second :: third :: rest))) =
      decodeItems type (.int type.toInt :: second :: third :: rest) := by
  rw [decode, if_neg (by simp)]
  show decodeItems (AddressType.ofInt type.toInt) _ = _
  rw [AddressType.ofInt_toInt]

theorem decode_encoded {address : Address} (h : address.IsDocumented) :
    decode address.encode = .ok address.kept := by
  obtain ⟨type, objectId, callId, service, broadcastIdtype⟩ := address
  have hService := unlessNone_stringOrNone service
  have hObjectId := unlessNone_intOrNone objectId
  have hCallId := unlessNone_intOrNone callId
  rcases h with hType | hType | hType | hType <;> obtain rfl : type = _ := hType
  · refine (decode_object .node _ _ _).trans ?_
    simp only [decodeItems, requireInt, hService, hCallId]
    rfl
  · refine (decode_object .client _ _ _).trans ?_
    simp only [decodeItems, requireInt, hService, hCallId]
    rfl
  · refine (decode_object .broadcast _ _ _).trans ?_
    simp only [decodeItems, requireString, hService]
    rfl
  · refine (decode_object .any _ _ _).trans ?_
    simp only [decodeItems, hService, hObjectId]
    rfl

/-- Nothing in an address changes in the marshal codec. -/
theorem stored_encode (address : Address) : address.encode.stored = address.encode := by
  have hItems : (address.fields.map Value.stored) = address.fields := by
    unfold fields
    split
    · simp only [List.map_cons, List.map_nil, stored_stringOrNone, stored_intOrNone]
    · simp only [List.map_cons, List.map_nil, stored_stringOrNone, stored_intOrNone]
      rfl
    · simp only [List.map_cons, List.map_nil, stored_stringOrNone, stored_intOrNone]
      rfl
    · simp only [List.map_cons, List.map_nil, stored_stringOrNone]
      rfl
    · rfl
    · rfl
  rw [encode, Value.stored, stored_tuple, List.map_cons, hItems]
  rfl

/-- The documented fields come back, but for the call id of an `Any` address. -/
theorem sameFields_kept_iff {address : Address} (h : address.IsDocumented) :
    address.SameFields address.kept ↔ (address.type = .any → address.callId = 0) := by
  obtain ⟨type, objectId, callId, service, broadcastIdtype⟩ := address
  rcases h with hType | hType | hType | hType <;> obtain rfl : type = _ := hType
  · simp [SameFields, kept]
  · simp [SameFields, kept]
  · simp [SameFields, kept]
  · simp [SameFields, kept]

end Address

-- ---------------------------------------------------------------------------
-- Packets
-- ---------------------------------------------------------------------------

namespace Packet

/-- A packet between two addresses of documented kinds, with a payload, and with a named
payload that is not `None` if it has one. -/
structure IsDocumented (packet : Packet) : Prop where
  source : packet.source.IsDocumented
  dest : packet.dest.IsDocumented
  payload : packet.payload.isSome
  namedPayload : packet.namedPayload ≠ some .none

/-- The two packets agree in their documented fields. -/
structure SameFields (p q : Packet) : Prop where
  typeString : p.typeString = q.typeString
  type : p.type = q.type
  source : p.source.SameFields q.source
  dest : p.dest.SameFields q.dest
  userId : p.userId = q.userId
  payload : p.payload = q.payload
  namedPayload : p.namedPayload = q.namedPayload

/-- What the wire makes of a packet with these payloads. -/
def received (packet : Packet) (generation : UInt64) : Packet :=
  { packet with
    source := packet.source.kept
    dest := packet.dest.kept
    payload := packet.payload.map Value.stored
    namedPayload := packet.namedPayload.map Value.stored
    generation }

theorem stored_eq_none {v : Value} : v.stored = .none ↔ v = .none := by
  cases v with
  | none => simp [Value.stored]
  | objectEx isType2 data => simp [Value.stored]
  | packedRow row => simp [Value.stored]
  | _ => simp [Value.stored]

/-- `Decode` of what the marshal codec makes of an encoded packet. -/
theorem decode_stored {packet : Packet} (h : packet.IsDocumented) (generation : UInt64) :
    decode packet.encode.stored generation = .ok (packet.received generation) := by
  obtain ⟨typeString, type, source, dest, userId, payload, namedPayload, old⟩ := packet
  obtain ⟨payload, rfl⟩ := Option.isSome_iff_exists.mp h.payload
  have hNamed : namedPayload ≠ some .none := h.namedPayload
  have hItems : (encode ⟨typeString, type, source, dest, userId, some payload, namedPayload,
      old⟩).stored = .object typeString (.tuple [.int type.toInt, source.encode, dest.encode,
        intOrNone userId, payload.stored, (namedPayload.getD .none).stored, .none]) := by
    rw [encode, Value.stored, stored_tuple]
    simp only [List.map_cons, List.map_nil, Address.stored_encode, stored_intOrNone,
      Option.getD_some]
    rfl
  have hSource := Address.decode_encoded h.source
  have hDest := Address.decode_encoded h.dest
  have hUser := unlessNone_intOrNone userId
  have hIsNone : (if (namedPayload.getD .none).stored.isNone then none
      else some (namedPayload.getD .none).stored) = namedPayload.map Value.stored := by
    cases namedPayload with
    | none => rfl
    | some named =>
      have hSome : named.stored.isNone = false := by
        cases hStored : named.stored.isNone with
        | false => rfl
        | true =>
          rw [isNone_iff, stored_eq_none] at hStored
          exact absurd (congrArg some hStored) hNamed
      rw [Option.getD_some, hSome]
      rfl
  rw [hItems, decode, if_neg (by simp [kMinPacketTupleSize]),
    if_neg (by simp [kMaxPacketTupleSize])]
  simp only [decodeItems, requireInt, hSource, hDest, hUser]
  show Except.ok _ = _
  rw [MessageType.ofInt_toInt, hIsNone]
  rfl

/-- The documented fields come back when the payloads do and no `Any` address has a call
id. -/
theorem sameFields_received_iff {packet : Packet} (h : packet.IsDocumented)
    (generation : UInt64) :
    packet.SameFields (packet.received generation) ↔
      (packet.source.type = .any → packet.source.callId = 0) ∧
      (packet.dest.type = .any → packet.dest.callId = 0) ∧
      (∀ v, packet.payload = some v → v.stored = v) ∧
      (∀ v, packet.namedPayload = some v → v.stored = v) := by
  have hMap : ∀ field : Option Value,
      field = field.map Value.stored ↔ ∀ v, field = some v → v.stored = v := by
    intro field
    cases field with
    | none => simp
    | some v => simp [eq_comm]
  rw [← Address.sameFields_kept_iff h.source, ← Address.sameFields_kept_iff h.dest,
    ← hMap packet.payload, ← hMap packet.namedPayload]
  constructor
  · intro hSame
    exact ⟨hSame.source, hSame.dest, hSame.payload, hSame.namedPayload⟩
  · rintro ⟨hSource, hDest, hPayload, hNamed⟩
    exact ⟨rfl, rfl, hSource, hDest, rfl, hPayload, hNamed⟩

/-- The packet comes back from the wire with its documented fields. -/
def RoundTrips (packet : Packet) (generation : UInt64) : Prop :=
  ∃ bytes value received, Marshal.encode packet.encode = .ok bytes ∧
    Marshal.decode bytes true = .ok value ∧ decode value generation = .ok received ∧
    packet.SameFields received

end Packet

/-- A documented packet that the marshal codec carries comes back exactly when neither of
its addresses is an `Any` address with a call id. -/
theorem packet_roundTrip_iff {packet : Packet} (h : packet.IsDocumented)
    (generation : UInt64) :
    packet.RoundTrips generation ↔
      (packet.source.type = .any → packet.source.callId = 0) ∧
      (packet.dest.type = .any → packet.dest.callId = 0) ∧
      (∀ v, packet.payload = some v → v.stored = v) ∧
      (∀ v, packet.namedPayload = some v → v.stored = v) ∧
      ∃ bytes, Marshal.encode packet.encode = .ok bytes ∧
        bytes.length ≤ MAX_STREAM_BYTES := by
  have hSame := Packet.sameFields_received_iff h generation
  constructor
  · rintro ⟨bytes, value, received, hEncode, hDecode, hPacket, hFields⟩
    have hFits := length_le_of_decode hDecode
    obtain rfl : packet.encode.stored = value :=
      Except.ok.inj ((Marshal.decode_stored hEncode hFits).symm.trans hDecode)
    obtain rfl : packet.received generation = received :=
      Except.ok.inj ((Packet.decode_stored h generation).symm.trans hPacket)
    obtain ⟨hSource, hDest, hPayload, hNamed⟩ := hSame.mp hFields
    exact ⟨hSource, hDest, hPayload, hNamed, bytes, hEncode, hFits⟩
  · rintro ⟨hSource, hDest, hPayload, hNamed, bytes, hEncode, hFits⟩
    exact ⟨bytes, packet.encode.stored, packet.received generation, hEncode,
      Marshal.decode_stored hEncode hFits, Packet.decode_stored h generation,
      hSame.mpr ⟨hSource, hDest, hPayload, hNamed⟩⟩

/-- A ping from a node to a client. -/
def pingPacket : Packet where
  typeString := ascii "macho.PingReq"
  type := .pingReq
  source := { type := .node, objectId := 5, service := ascii "ping", callId := 7 }
  dest := { type := .client, objectId := 6, callId := 8 }
  userId := 9
  payload := some (.tuple [])

theorem packet_roundTrip_iff_pingPacket : pingPacket.RoundTrips 3 := by
  have hRun : ∃ bytes, Marshal.encode pingPacket.encode = .ok bytes ∧
      bytes.length ≤ MAX_STREAM_BYTES := by decide +kernel
  have hUnnamed : pingPacket.namedPayload = none := rfl
  have hDocumented : pingPacket.IsDocumented :=
    ⟨Or.inl rfl, Or.inr (Or.inl rfl), rfl, by simp [hUnnamed]⟩
  refine (packet_roundTrip_iff hDocumented 3).mpr ⟨by decide, by decide, ?_, ?_, hRun⟩
  · rintro v hPayload
    obtain rfl := Option.some.inj hPayload
    rfl
  · simp [hUnnamed]

/-- A packet to any node that offers a service, as the answer to call 7. -/
def anyPacket : Packet where
  typeString := ascii "macho.CallRsp"
  type := .callRsp
  source := { type := .node, objectId := 5 }
  dest := { type := .any, service := ascii "machoNet", callId := 7 }
  payload := some (.tuple [])

/-- The call id of an `Any` address is lost. -/
theorem not_roundTrips_anyPacket : anyPacket.IsDocumented ∧ ¬anyPacket.RoundTrips 3 := by
  have hDocumented : anyPacket.IsDocumented :=
    ⟨Or.inl rfl, Or.inr (Or.inr (Or.inr rfl)), rfl, by simp [anyPacket]⟩
  refine ⟨hDocumented, fun h => ?_⟩
  obtain ⟨bytes, value, received, hEncode, hDecode, hPacket, hFields⟩ := h
  have hFits := length_le_of_decode hDecode
  obtain rfl : anyPacket.encode.stored = value :=
    Except.ok.inj ((Marshal.decode_stored hEncode hFits).symm.trans hDecode)
  obtain rfl : anyPacket.received 3 = received :=
    Except.ok.inj ((Packet.decode_stored hDocumented 3).symm.trans hPacket)
  have hCallId : (7 : Int64) = 0 := hFields.dest.2.2
  exact absurd hCallId (by decide)

end Ithax.Network
