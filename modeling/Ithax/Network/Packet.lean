import Ithax.Marshal.StringTable

/-!
# Packets

`network/packet.cpp`: the addressed messages of a session and the marshal values
they travel as.
-/

namespace Ithax.Network

open Ithax.Lib Ithax.Marshal

/-- The one exception class of the codec. -/
structure PacketFormatError where
  message : String
  deriving DecidableEq, Repr

/-- A value, or the exception. -/
abbrev PacketResult := Except PacketFormatError

-- ---------------------------------------------------------------------------
-- Message and address types
-- ---------------------------------------------------------------------------

/-- The codes `MessageType` has an enumerator for. -/
def namedMessageTypes : List Int64 :=
  [0, 1, 2, 3, 6, 7, 8, 10, 11, 12, 15, 16, 18, 20, 21]

/-- `enum class MessageType : std::int64_t`. A code without an enumerator is still a
value of the enumeration, and `Packet::Decode` makes such values. -/
inductive MessageType where
  | authenticationReq | authenticationRsp | identificationReq | identificationRsp
  | callReq | callRsp | transportClosed | resolveReq | resolveRsp | notification
  | errorResponse | sessionChangeNotification | sessionInitialStateNotification
  | pingReq | pingRsp
  | other (raw : Int64) (unnamed : raw ∉ namedMessageTypes)
  deriving DecidableEq, Repr

namespace MessageType

/-- The enumerators' values. -/
def toInt : MessageType → Int64
  | authenticationReq => 0
  | authenticationRsp => 1
  | identificationReq => 2
  | identificationRsp => 3
  | callReq => 6
  | callRsp => 7
  | transportClosed => 8
  | resolveReq => 10
  | resolveRsp => 11
  | notification => 12
  | errorResponse => 15
  | sessionChangeNotification => 16
  | sessionInitialStateNotification => 18
  | pingReq => 20
  | pingRsp => 21
  | other raw _ => raw

/-- `static_cast<MessageType>` of an integer. -/
def ofInt (code : Int64) : MessageType :=
  if h : code ∈ namedMessageTypes then
    ([authenticationReq, authenticationRsp, identificationReq, identificationRsp,
      callReq, callRsp, transportClosed, resolveReq, resolveRsp, notification,
      errorResponse, sessionChangeNotification, sessionInitialStateNotification,
      pingReq, pingRsp].find? fun t => t.toInt == code).getD callReq
  else other code h

/-- Every message type is that of its number. -/
theorem ofInt_toInt (t : MessageType) : ofInt t.toInt = t := by
  cases t with
  | other raw unnamed => exact dif_neg unnamed
  | _ => decide

end MessageType

/-- The codes `AddressType` has an enumerator for. -/
def namedAddressTypes : List Int64 := [0, 1, 2, 4, 8]

/-- `enum class AddressType : std::int64_t`. -/
inductive AddressType where
  | node | client | broadcast | any | invalid
  | other (raw : Int64) (unnamed : raw ∉ namedAddressTypes)
  deriving DecidableEq, Repr

namespace AddressType

/-- The enumerators' values. -/
def toInt : AddressType → Int64
  | node => 1
  | client => 2
  | broadcast => 4
  | any => 8
  | invalid => 0
  | other raw _ => raw

/-- `static_cast<AddressType>` of an integer. -/
def ofInt (code : Int64) : AddressType :=
  if h : code ∈ namedAddressTypes then
    ([node, client, broadcast, any, invalid].find? fun t => t.toInt == code).getD invalid
  else other code h

/-- Every address type is that of its number. -/
theorem ofInt_toInt (t : AddressType) : ofInt t.toInt = t := by
  cases t with
  | other raw unnamed => exact dif_neg unnamed
  | _ => decide

end AddressType

-- ---------------------------------------------------------------------------
-- Field readers
-- ---------------------------------------------------------------------------

/-- The smallest packet. -/
def kMinPacketTupleSize : Nat := 7
/-- The largest packet. -/
def kMaxPacketTupleSize : Nat := 14
/-- The object type of an address. -/
def kAddressTypeName : Bytes := ascii "macho.MachoAddress"
/-- The object type of an address as newer peers write it. -/
def kModernAddressTypeName : Bytes :=
  ascii "carbon.common.script.net.machoNetPacket.MachoAddress"

/-- A value that has to be an integer. -/
def requireInt : Value → PacketResult Int64
  | .int i => .ok i
  | _ => .error ⟨"expected an int"⟩

/-- A value that has to be a string. -/
def requireString : Value → PacketResult Bytes
  | .string s => .ok s
  | _ => .error ⟨"expected a string"⟩

/-- A field that may be `None` and then keeps its default. -/
def unlessNone {α : Type} (value : Value) (default : α) (read : Value → PacketResult α) :
    PacketResult α :=
  if value.isNone then .ok default else read value

/-- A string field that is `None` when it is empty. -/
def stringOrNone (s : Bytes) : Value := if s = [] then .none else .string s

/-- An integer field that is `None` when it is zero. -/
def intOrNone (i : Int64) : Value := if i = 0 then .none else .int i

-- ---------------------------------------------------------------------------
-- Addresses
-- ---------------------------------------------------------------------------

/-- `Address`. Which fields count depends on the type. -/
structure Address where
  type : AddressType := .invalid
  objectId : Int64 := 0
  callId : Int64 := 0
  service : Bytes := []
  broadcastIdtype : Bytes := []
  deriving DecidableEq, Repr

namespace Address

/-- The items `Encode` puts after the type. -/
def fields (address : Address) : List Value :=
  match address.type with
  | .any => [stringOrNone address.service, intOrNone address.objectId]
  | .node =>
    [.int address.objectId, stringOrNone address.service, intOrNone address.callId]
  | .client =>
    [.int address.objectId, intOrNone address.callId, stringOrNone address.service]
  | .broadcast =>
    [stringOrNone address.service, .list [], .string address.broadcastIdtype]
  | .invalid => [.none]
  | .other _ _ => []

/-- `Address::Encode`. -/
def encode (address : Address) : Value :=
  .object kAddressTypeName (.tuple (.int address.type.toInt :: address.fields))

/-- The items of an address object, which are at least three. -/
def decodeItems (type : AddressType) (items : List Value) : PacketResult Address :=
  match type with
  | .any =>
    match items with
    | [_, service, objectId] => do
      let service ← unlessNone service [] requireString
      let objectId ← unlessNone objectId 0 requireInt
      return { type := .any, service, objectId }
    | _ => .error ⟨"any address tuple has the wrong size"⟩
  | .node =>
    match items with
    | [_, objectId, service, callId] => do
      let objectId ← requireInt objectId
      let service ← unlessNone service [] requireString
      let callId ← unlessNone callId 0 requireInt
      return { type := .node, objectId, service, callId }
    | _ => .error ⟨"node address tuple has the wrong size"⟩
  | .client =>
    match items with
    | [_, objectId, callId, service] => do
      let objectId ← requireInt objectId
      let callId ← unlessNone callId 0 requireInt
      let service ← unlessNone service [] requireString
      return { type := .client, objectId, callId, service }
    | _ => .error ⟨"client address tuple has the wrong size"⟩
  | .broadcast =>
    match items with
    | [_, service, _, idtype] => do
      let service ← unlessNone service [] requireString
      let broadcastIdtype ← requireString idtype
      return { type := .broadcast, service, broadcastIdtype }
    | _ => .error ⟨"broadcast address tuple has the wrong size"⟩
  | .invalid => .error ⟨"address type is invalid"⟩
  -- the switch has no default: such an address keeps the defaults
  | .other raw unnamed => .ok { type := .other raw unnamed }

/-- `Address::Decode`. -/
def decode : Value → PacketResult Address
  | .object type args =>
    if type ≠ kAddressTypeName ∧ type ≠ kModernAddressTypeName then
      .error ⟨"address is not a macho address object"⟩
    else
      match args with
      | .tuple (first :: second :: third :: rest) => do
        let code ← requireInt first
        decodeItems (AddressType.ofInt code) (first :: second :: third :: rest)
      | _ => .error ⟨"address tuple is too short"⟩
  | _ => .error ⟨"address is not a macho address object"⟩

end Address

-- ---------------------------------------------------------------------------
-- Packets
-- ---------------------------------------------------------------------------

/-- `Packet`, with the generation it was decoded under. -/
structure Packet where
  typeString : Bytes := []
  type : MessageType := .callReq
  source : Address := {}
  dest : Address := {}
  userId : Int64 := 0
  payload : Option Value := none
  namedPayload : Option Value := none
  generation : UInt64 := 0

namespace Packet

/-- `Packet::Encode`. -/
def encode (packet : Packet) : Value :=
  .object packet.typeString (.tuple
    [.int packet.type.toInt, packet.source.encode, packet.dest.encode,
      intOrNone packet.userId, packet.payload.getD (.tuple []),
      packet.namedPayload.getD .none, .none])

/-- The items of a packet object that `Decode` reads; it looks at no more than six. -/
def decodeItems (typeString : Bytes) (generation : UInt64) :
    List Value → PacketResult Packet
  | type :: source :: dest :: userId :: payload :: namedPayload :: _ => do
    let code ← requireInt type
    let source ← Address.decode source
    let dest ← Address.decode dest
    let userId ← unlessNone userId 0 requireInt
    return {
      typeString, type := MessageType.ofInt code, source, dest, userId
      payload := some payload
      namedPayload := if namedPayload.isNone then none else some namedPayload
      generation }
  | _ => .error ⟨"packet body is not a tuple"⟩

/-- `Packet::Decode`. -/
def decode (value : Value) (generation : UInt64) : PacketResult Packet :=
  match value with
  | .object typeString (.tuple items) =>
    if items.length < kMinPacketTupleSize then .error ⟨"packet body is not a tuple"⟩
    else if items.length > kMaxPacketTupleSize then .error ⟨"packet tuple is too large"⟩
    else decodeItems typeString generation items
  | .object _ _ => .error ⟨"packet body is not a tuple"⟩
  | _ => .error ⟨"packet is not an object"⟩

end Packet

end Ithax.Network
