import Ithax.Network.Client
import Ithax.Network.PacketCodec

/-!
# Which values are packets

The grammar of the documentation (`IsPacket`) beside what `Packet::Decode` lets
through. The switch of `Address::Decode` has no default, so that an address of a type
without an enumerator passes, and the message type, the payload and the named payload
are stored as they come.

## Results

* `Address.decode_ok_iff`    — the addresses that are accepted.
* `Packet.decode_ok_iff`     — the packets that are accepted.
* `decodes_grammar_iff`      — the values that are accepted as the grammar says.
* `packet_answerable_iff`    — the accepted packets that can be sent back.
-/

namespace Ithax.Network

open Ithax.Lib Ithax.Marshal

-- ---------------------------------------------------------------------------
-- The grammar
-- ---------------------------------------------------------------------------

/-- An integer, or nothing. -/
def IsIntOrNone (value : Value) : Prop := value = .none ∨ ∃ i, value = .int i

/-- A string, or nothing. -/
def IsStringOrNone (value : Value) : Prop := value = .none ∨ ∃ s, value = .string s

/-- A dictionary, or nothing. -/
def IsDictOrNone (value : Value) : Prop := value = .none ∨ ∃ entries, value = .dict entries

/-- The items that follow the type code of an address of a documented kind. -/
inductive AddressShape : Int64 → List Value → Prop where
  | node {nodeId : Int64} {service callId : Value} : IsStringOrNone service →
      IsIntOrNone callId → AddressShape 1 [.int nodeId, service, callId]
  | client {clientId : Int64} {callId service : Value} : IsIntOrNone callId →
      IsStringOrNone service → AddressShape 2 [.int clientId, callId, service]
  | broadcast {broadcastId narrowcast : Value} {idtype : Bytes} : IsStringOrNone broadcastId →
      AddressShape 4 [broadcastId, narrowcast, .string idtype]
  | any {service callId : Value} : IsStringOrNone service → IsIntOrNone callId →
      AddressShape 8 [service, callId]

/-- The names that an address goes by. -/
def IsAddressName (name : Bytes) : Prop :=
  name = kAddressTypeName ∨ name = kModernAddressTypeName

/-- An address, as the grammar has it. -/
def IsAddress (value : Value) : Prop :=
  ∃ name code fields, IsAddressName name ∧ value = .object name (.tuple (.int code :: fields)) ∧
    AddressShape code fields

/-- An address object whose type code is that of no enumerator. -/
def IsUnnamedAddress (value : Value) : Prop :=
  ∃ name code second third rest, IsAddressName name ∧
    value = .object name (.tuple (.int code :: second :: third :: rest)) ∧
    code ∉ namedAddressTypes

/-- The packets of the documentation. -/
def IsPacket (value : Value) : Prop :=
  ∃ typeString code source dest userId payload namedPayload rest,
    value = .object typeString
      (.tuple (.int code :: source :: dest :: userId :: payload :: namedPayload :: rest)) ∧
    1 ≤ rest.length ∧ rest.length ≤ 8 ∧ code ∈ namedMessageTypes ∧ IsAddress source ∧
    IsAddress dest ∧ IsIntOrNone userId ∧ payload.isTuple = true ∧ IsDictOrNone namedPayload

-- ---------------------------------------------------------------------------
-- Fields
-- ---------------------------------------------------------------------------

/-- `RequireInt` lets integers through. -/
theorem requireInt_ok_iff {value : Value} {i : Int64} :
    requireInt value = .ok i ↔ value = .int i := by
  cases value with
  | int j => simp [requireInt]
  | _ => simp [requireInt]

/-- `RequireString` lets strings through. -/
theorem requireString_ok_iff {value : Value} {s : Bytes} :
    requireString value = .ok s ↔ value = .string s := by
  cases value with
  | string t => simp [requireString]
  | _ => simp [requireString]

/-- Nothing stands for the default. -/
theorem unlessNone_ok_iff {α : Type} {value : Value} {default a : α}
    {read : Value → PacketResult α} : unlessNone value default read = .ok a ↔
      (value = .none ∧ a = default) ∨ (value ≠ .none ∧ read value = .ok a) := by
  unfold unlessNone
  cases hNone : value.isNone with
  | true =>
    rw [isNone_iff] at hNone
    simp [hNone, eq_comm]
  | false =>
    have hSome : value ≠ .none := by
      intro hEq
      rw [hEq] at hNone
      cases hNone
    simp [hSome]

/-- What is read as an integer with a default. -/
theorem exists_intOrNone_iff {value : Value} :
    (∃ i, unlessNone value 0 requireInt = .ok i) ↔ IsIntOrNone value := by
  simp only [unlessNone_ok_iff, requireInt_ok_iff]
  constructor
  · rintro ⟨i, ⟨hNone, -⟩ | ⟨-, hInt⟩⟩
    · exact Or.inl hNone
    · exact Or.inr ⟨i, hInt⟩
  · rintro (hNone | ⟨i, rfl⟩)
    · exact ⟨0, Or.inl ⟨hNone, rfl⟩⟩
    · exact ⟨i, Or.inr ⟨by simp, rfl⟩⟩

/-- What is read as a string with a default. -/
theorem exists_stringOrNone_iff {value : Value} :
    (∃ s, unlessNone value [] requireString = .ok s) ↔ IsStringOrNone value := by
  simp only [unlessNone_ok_iff, requireString_ok_iff]
  constructor
  · rintro ⟨s, ⟨hNone, -⟩ | ⟨-, hString⟩⟩
    · exact Or.inl hNone
    · exact Or.inr ⟨s, hString⟩
  · rintro (hNone | ⟨s, rfl⟩)
    · exact ⟨[], Or.inl ⟨hNone, rfl⟩⟩
    · exact ⟨s, Or.inr ⟨by simp, rfl⟩⟩

section Bind

variable {α β : Type} {m : PacketResult α} {f : α → PacketResult β} {b : β}

/-- Both computations succeed. -/
theorem bind_ok_iff : m >>= f = .ok b ↔ ∃ a, m = .ok a ∧ f a = .ok b := by
  cases m with
  | ok a => simp [bind, Except.bind]
  | error e => simp [bind, Except.bind]

end Bind

-- ---------------------------------------------------------------------------
-- Addresses
-- ---------------------------------------------------------------------------

namespace AddressType

/-- The enumerators by their codes. -/
theorem ofInt_cases (code : Int64) :
    (code = 0 ∧ ofInt code = invalid) ∨ (code = 1 ∧ ofInt code = node) ∨
    (code = 2 ∧ ofInt code = client) ∨ (code = 4 ∧ ofInt code = broadcast) ∨
    (code = 8 ∧ ofInt code = any) ∨
    ∃ h : code ∉ namedAddressTypes, ofInt code = other code h := by
  by_cases hNamed : code ∈ namedAddressTypes
  · simp only [namedAddressTypes, List.mem_cons, List.not_mem_nil, or_false] at hNamed
    rcases hNamed with rfl | rfl | rfl | rfl | rfl
    · exact Or.inl ⟨rfl, by decide⟩
    · exact Or.inr (Or.inl ⟨rfl, by decide⟩)
    · exact Or.inr (Or.inr (Or.inl ⟨rfl, by decide⟩))
    · exact Or.inr (Or.inr (Or.inr (Or.inl ⟨rfl, by decide⟩)))
    · exact Or.inr (Or.inr (Or.inr (Or.inr (Or.inl ⟨rfl, by decide⟩))))
  · exact Or.inr (Or.inr (Or.inr (Or.inr (Or.inr ⟨hNamed, dif_neg hNamed⟩))))

end AddressType

namespace Address

/-- `Decode` reads the type code of an address object and the items of its kind. -/
theorem decode_ok_iff_items {value : Value} {address : Address} :
    decode value = .ok address ↔
      ∃ name code second third rest, IsAddressName name ∧
        value = .object name (.tuple (.int code :: second :: third :: rest)) ∧
        decodeItems (AddressType.ofInt code) (.int code :: second :: third :: rest) =
          .ok address := by
  constructor
  · intro h
    unfold decode at h
    split at h
    · rename_i name args
      by_cases hName : name ≠ kAddressTypeName ∧ name ≠ kModernAddressTypeName
      · rw [if_pos hName] at h
        cases h
      · rw [if_neg hName] at h
        split at h
        · rename_i first second third rest
          obtain ⟨code, hCode, hItems⟩ := bind_ok_iff.mp h
          obtain rfl := requireInt_ok_iff.mp hCode
          refine ⟨name, code, second, third, rest, ?_, rfl, hItems⟩
          by_cases hOld : name = kAddressTypeName
          · exact Or.inl hOld
          · exact Or.inr (by_contra fun hModern => hName ⟨hOld, hModern⟩)
        · cases h
    · cases h
  · rintro ⟨name, code, second, third, rest, hName, rfl, hItems⟩
    have hKnown : ¬(name ≠ kAddressTypeName ∧ name ≠ kModernAddressTypeName) := by
      rintro ⟨hOld, hModern⟩
      rcases hName with hEq | hEq
      · exact hOld hEq
      · exact hModern hEq
    rw [decode, if_neg hKnown]
    exact hItems

section Items

variable {first second third : Value} {rest : List Value} {address : Address}

/-- The fields of an `Any` address. -/
theorem decodeItems_any_iff : decodeItems .any (first :: second :: third :: rest) = .ok address ↔
    ∃ service objectId, rest = [] ∧ unlessNone second [] requireString = .ok service ∧
      unlessNone third 0 requireInt = .ok objectId ∧
      address = { type := .any, service, objectId } := by
  cases rest with
  | nil =>
    simp only [decodeItems, bind_ok_iff, pure, Except.pure, Except.ok.injEq]
    constructor
    · rintro ⟨service, hService, objectId, hObjectId, rfl⟩
      exact ⟨service, objectId, trivial, hService, hObjectId, rfl⟩
    · rintro ⟨service, objectId, -, hService, hObjectId, rfl⟩
      exact ⟨service, hService, objectId, hObjectId, rfl⟩
  | cons fourth rest => simp [decodeItems]

/-- The fields of a `Node` address. -/
theorem decodeItems_node_iff : decodeItems .node (first :: second :: third :: rest) = .ok address ↔
    ∃ fourth objectId service callId, rest = [fourth] ∧ second = .int objectId ∧
      unlessNone third [] requireString = .ok service ∧
      unlessNone fourth 0 requireInt = .ok callId ∧
      address = { type := .node, objectId, service, callId } := by
  rcases rest with _ | ⟨fourth, _ | ⟨fifth, rest⟩⟩
  · simp [decodeItems]
  · simp only [decodeItems, bind_ok_iff, pure, Except.pure, Except.ok.injEq, requireInt_ok_iff]
    constructor
    · rintro ⟨objectId, hObjectId, service, hService, callId, hCallId, rfl⟩
      exact ⟨fourth, objectId, service, callId, rfl, hObjectId, hService, hCallId, rfl⟩
    · rintro ⟨_, objectId, service, callId, hRest, hObjectId, hService, hCallId, rfl⟩
      obtain ⟨rfl, -⟩ := List.cons.inj hRest
      exact ⟨objectId, hObjectId, service, hService, callId, hCallId, rfl⟩
  · simp [decodeItems]

/-- The fields of a `Client` address. -/
theorem decodeItems_client_iff :
    decodeItems .client (first :: second :: third :: rest) = .ok address ↔
    ∃ fourth objectId callId service, rest = [fourth] ∧ second = .int objectId ∧
      unlessNone third 0 requireInt = .ok callId ∧
      unlessNone fourth [] requireString = .ok service ∧
      address = { type := .client, objectId, callId, service } := by
  rcases rest with _ | ⟨fourth, _ | ⟨fifth, rest⟩⟩
  · simp [decodeItems]
  · simp only [decodeItems, bind_ok_iff, pure, Except.pure, Except.ok.injEq, requireInt_ok_iff]
    constructor
    · rintro ⟨objectId, hObjectId, callId, hCallId, service, hService, rfl⟩
      exact ⟨fourth, objectId, callId, service, rfl, hObjectId, hCallId, hService, rfl⟩
    · rintro ⟨_, objectId, callId, service, hRest, hObjectId, hCallId, hService, rfl⟩
      obtain ⟨rfl, -⟩ := List.cons.inj hRest
      exact ⟨objectId, hObjectId, callId, hCallId, service, hService, rfl⟩
  · simp [decodeItems]

/-- The fields of a `Broadcast` address. -/
theorem decodeItems_broadcast_iff :
    decodeItems .broadcast (first :: second :: third :: rest) = .ok address ↔
    ∃ broadcastIdtype service, rest = [.string broadcastIdtype] ∧
      unlessNone second [] requireString = .ok service ∧
      address = { type := .broadcast, service, broadcastIdtype } := by
  rcases rest with _ | ⟨fourth, _ | ⟨fifth, rest⟩⟩
  · simp [decodeItems]
  · simp only [decodeItems, bind_ok_iff, pure, Except.pure, Except.ok.injEq, requireString_ok_iff]
    constructor
    · rintro ⟨service, hService, broadcastIdtype, rfl, rfl⟩
      exact ⟨broadcastIdtype, service, rfl, hService, rfl⟩
    · rintro ⟨broadcastIdtype, service, hRest, hService, rfl⟩
      obtain ⟨rfl, -⟩ := List.cons.inj hRest
      exact ⟨service, hService, broadcastIdtype, rfl, rfl⟩
  · simp [decodeItems]

end Items

/-- The accepted addresses: those of the grammar, and those of an unnamed type. -/
theorem decode_ok_iff {value : Value} :
    (∃ address, decode value = .ok address) ↔ IsAddress value ∨ IsUnnamedAddress value := by
  constructor
  · rintro ⟨address, hDecode⟩
    obtain ⟨name, code, second, third, rest, hName, rfl, hItems⟩ :=
      decode_ok_iff_items.mp hDecode
    rcases AddressType.ofInt_cases code with ⟨-, hType⟩ | ⟨rfl, hType⟩ | ⟨rfl, hType⟩ |
      ⟨rfl, hType⟩ | ⟨rfl, hType⟩ | ⟨hUnnamed, -⟩
    · rw [hType] at hItems
      cases hItems
    · rw [hType] at hItems
      obtain ⟨fourth, objectId, service, callId, rfl, rfl, hService, hCallId, -⟩ :=
        decodeItems_node_iff.mp hItems
      exact Or.inl ⟨name, 1, _, hName, rfl, .node (exists_stringOrNone_iff.mp ⟨_, hService⟩)
        (exists_intOrNone_iff.mp ⟨_, hCallId⟩)⟩
    · rw [hType] at hItems
      obtain ⟨fourth, objectId, callId, service, rfl, rfl, hCallId, hService, -⟩ :=
        decodeItems_client_iff.mp hItems
      exact Or.inl ⟨name, 2, _, hName, rfl, .client (exists_intOrNone_iff.mp ⟨_, hCallId⟩)
        (exists_stringOrNone_iff.mp ⟨_, hService⟩)⟩
    · rw [hType] at hItems
      obtain ⟨idtype, service, rfl, hService, -⟩ := decodeItems_broadcast_iff.mp hItems
      exact Or.inl ⟨name, 4, _, hName, rfl, .broadcast (exists_stringOrNone_iff.mp ⟨_, hService⟩)⟩
    · rw [hType] at hItems
      obtain ⟨service, objectId, rfl, hService, hObjectId, -⟩ := decodeItems_any_iff.mp hItems
      exact Or.inl ⟨name, 8, _, hName, rfl, .any (exists_stringOrNone_iff.mp ⟨_, hService⟩)
        (exists_intOrNone_iff.mp ⟨_, hObjectId⟩)⟩
    · exact Or.inr ⟨name, code, second, third, rest, hName, rfl, hUnnamed⟩
  · rintro (⟨name, code, fields, hName, rfl, hShape⟩ |
      ⟨name, code, second, third, rest, hName, rfl, hUnnamed⟩)
    · cases hShape with
      | node hService hCallId =>
        obtain ⟨service, hService⟩ := exists_stringOrNone_iff.mpr hService
        obtain ⟨callId, hCallId⟩ := exists_intOrNone_iff.mpr hCallId
        exact ⟨_, decode_ok_iff_items.mpr ⟨name, 1, _, _, _, hName, rfl,
          decodeItems_node_iff.mpr ⟨_, _, _, _, rfl, rfl, hService, hCallId, rfl⟩⟩⟩
      | client hCallId hService =>
        obtain ⟨service, hService⟩ := exists_stringOrNone_iff.mpr hService
        obtain ⟨callId, hCallId⟩ := exists_intOrNone_iff.mpr hCallId
        exact ⟨_, decode_ok_iff_items.mpr ⟨name, 2, _, _, _, hName, rfl,
          decodeItems_client_iff.mpr ⟨_, _, _, _, rfl, rfl, hCallId, hService, rfl⟩⟩⟩
      | broadcast hService =>
        obtain ⟨service, hService⟩ := exists_stringOrNone_iff.mpr hService
        exact ⟨_, decode_ok_iff_items.mpr ⟨name, 4, _, _, _, hName, rfl,
          decodeItems_broadcast_iff.mpr ⟨_, _, rfl, hService, rfl⟩⟩⟩
      | any hService hCallId =>
        obtain ⟨service, hService⟩ := exists_stringOrNone_iff.mpr hService
        obtain ⟨callId, hCallId⟩ := exists_intOrNone_iff.mpr hCallId
        exact ⟨_, decode_ok_iff_items.mpr ⟨name, 8, _, _, _, hName, rfl,
          decodeItems_any_iff.mpr ⟨_, _, rfl, hService, hCallId, rfl⟩⟩⟩
    · have hType : AddressType.ofInt code = .other code hUnnamed := dif_neg hUnnamed
      refine ⟨{ type := .other code hUnnamed }, decode_ok_iff_items.mpr
        ⟨name, code, second, third, rest, hName, rfl, ?_⟩⟩
      rw [hType]
      rfl

end Address

-- ---------------------------------------------------------------------------
-- Packets
-- ---------------------------------------------------------------------------

/-- An address that `Decode` lets through. -/
def IsLooseAddress (value : Value) : Prop := IsAddress value ∨ IsUnnamedAddress value

namespace Packet

/-- What `Decode` reads of a value, and the packet it makes of it. -/
theorem decode_ok_iff_fields {value : Value} {generation : UInt64} {packet : Packet} :
    decode value generation = .ok packet ↔
      ∃ typeString code source dest userId payload namedPayload rest src dst user,
        value = .object typeString
          (.tuple (.int code :: source :: dest :: userId :: payload :: namedPayload :: rest)) ∧
        1 ≤ rest.length ∧ rest.length ≤ 8 ∧ Address.decode source = .ok src ∧
        Address.decode dest = .ok dst ∧ unlessNone userId 0 requireInt = .ok user ∧
        packet = {
          typeString, type := MessageType.ofInt code, source := src, dest := dst, userId := user
          payload := some payload
          namedPayload := if namedPayload.isNone then none else some namedPayload
          generation } := by
  constructor
  · intro h
    unfold decode at h
    split at h
    · rename_i typeString items
      by_cases hShort : items.length < kMinPacketTupleSize
      · rw [if_pos hShort] at h
        cases h
      rw [if_neg hShort] at h
      by_cases hLong : items.length > kMaxPacketTupleSize
      · rw [if_pos hLong] at h
        cases h
      rw [if_neg hLong] at h
      unfold decodeItems at h
      split at h
      · rename_i type source dest userId payload namedPayload rest
        simp only [bind_ok_iff, pure, Except.pure, Except.ok.injEq, requireInt_ok_iff] at h
        obtain ⟨code, rfl, src, hSource, dst, hDest, user, hUser, rfl⟩ := h
        simp only [List.length_cons, kMinPacketTupleSize] at hShort
        simp only [List.length_cons, kMaxPacketTupleSize] at hLong
        exact ⟨typeString, code, source, dest, userId, payload, namedPayload, rest, src, dst, user,
          rfl, by omega, by omega, hSource, hDest, hUser, rfl⟩
      · cases h
    · cases h
    · cases h
  · rintro ⟨typeString, code, source, dest, userId, payload, namedPayload, rest, src, dst, user,
      rfl, hMin, hMax, hSource, hDest, hUser, rfl⟩
    have hShort : ¬(Value.int code :: source :: dest :: userId :: payload :: namedPayload ::
        rest).length < kMinPacketTupleSize := by
      simp only [List.length_cons, kMinPacketTupleSize]
      omega
    have hLong : ¬(Value.int code :: source :: dest :: userId :: payload :: namedPayload ::
        rest).length > kMaxPacketTupleSize := by
      simp only [List.length_cons, kMaxPacketTupleSize]
      omega
    rw [decode, if_neg hShort, if_neg hLong]
    simp only [decodeItems, requireInt, hSource, hDest, hUser]
    rfl

/-- The accepted packets. -/
theorem decode_ok_iff {value : Value} {generation : UInt64} :
    (∃ packet, decode value generation = .ok packet) ↔
      ∃ typeString code source dest userId payload namedPayload rest,
        value = .object typeString
          (.tuple (.int code :: source :: dest :: userId :: payload :: namedPayload :: rest)) ∧
        1 ≤ rest.length ∧ rest.length ≤ 8 ∧ IsLooseAddress source ∧ IsLooseAddress dest ∧
        IsIntOrNone userId := by
  simp only [decode_ok_iff_fields]
  constructor
  · rintro ⟨packet, typeString, code, source, dest, userId, payload, namedPayload, rest, src, dst,
      user, rfl, hMin, hMax, hSource, hDest, hUser, -⟩
    exact ⟨typeString, code, source, dest, userId, payload, namedPayload, rest, rfl, hMin, hMax,
      Address.decode_ok_iff.mp ⟨src, hSource⟩, Address.decode_ok_iff.mp ⟨dst, hDest⟩,
      exists_intOrNone_iff.mp ⟨user, hUser⟩⟩
  · rintro ⟨typeString, code, source, dest, userId, payload, namedPayload, rest, rfl, hMin, hMax,
      hSource, hDest, hUser⟩
    obtain ⟨src, hSource⟩ := Address.decode_ok_iff.mpr hSource
    obtain ⟨dst, hDest⟩ := Address.decode_ok_iff.mpr hDest
    obtain ⟨user, hUser⟩ := exists_intOrNone_iff.mpr hUser
    exact ⟨_, typeString, code, source, dest, userId, payload, namedPayload, rest, src, dst, user,
      rfl, hMin, hMax, hSource, hDest, hUser, rfl⟩

end Packet

-- ---------------------------------------------------------------------------
-- Decoding and the grammar
-- ---------------------------------------------------------------------------

/-- `Decode` accepts the value if it is a packet and throws otherwise. -/
def DecodesGrammar (value : Value) (generation : UInt64) : Prop :=
  (IsPacket value → ∃ packet, Packet.decode value generation = .ok packet) ∧
  (¬IsPacket value → ∃ e : PacketFormatError, Packet.decode value generation = .error e)

/-- The value has the shape that `Decode` looks at, but a type code without a name or a
payload of another kind. -/
def IsUninspected (value : Value) : Prop :=
  ∃ typeString code source dest userId payload namedPayload rest,
    value = .object typeString
      (.tuple (.int code :: source :: dest :: userId :: payload :: namedPayload :: rest)) ∧
    1 ≤ rest.length ∧ rest.length ≤ 8 ∧ IsLooseAddress source ∧ IsLooseAddress dest ∧
    IsIntOrNone userId ∧
    (code ∉ namedMessageTypes ∨ IsUnnamedAddress source ∨ IsUnnamedAddress dest ∨
      payload.isTuple = false ∨ ¬IsDictOrNone namedPayload)

/-- The codes of the documented kinds have names. -/
theorem AddressShape.named {code : Int64} {fields : List Value} (h : AddressShape code fields) :
    code ∈ namedAddressTypes := by
  cases h <;> decide

/-- No address is of a documented kind and of an unnamed type. -/
theorem not_unnamed_of_isAddress {value : Value} (h : IsAddress value) :
    ¬IsUnnamedAddress value := by
  rintro ⟨name', code', second, third, rest, -, hOther, hUnnamed⟩
  obtain ⟨name, code, fields, -, rfl, hShape⟩ := h
  simp only [Value.object.injEq, Value.tuple.injEq, List.cons.injEq, Value.int.injEq] at hOther
  exact hUnnamed (hOther.2.1 ▸ hShape.named)

/-- What is not inspected is no packet of the grammar. -/
theorem not_isPacket_of_isUninspected {value : Value} (h : IsUninspected value) :
    ¬IsPacket value := by
  obtain ⟨typeString, code, source, dest, userId, payload, namedPayload, rest, rfl, -, -, -, -, -,
    hLoose⟩ := h
  rintro ⟨typeString', code', source', dest', userId', payload', namedPayload', rest', hSame, -, -,
    hCode, hSource, hDest, -, hPayload, hNamed⟩
  simp only [Value.object.injEq, Value.tuple.injEq, List.cons.injEq, Value.int.injEq] at hSame
  obtain ⟨-, rfl, rfl, rfl, -, rfl, rfl, -⟩ := hSame
  rcases hLoose with hBad | hBad | hBad | hBad | hBad
  · exact hBad hCode
  · exact not_unnamed_of_isAddress hSource hBad
  · exact not_unnamed_of_isAddress hDest hBad
  · rw [hPayload] at hBad
    cases hBad
  · exact hBad hNamed

/-- Every packet of the grammar is accepted. -/
theorem accepted_of_isPacket {value : Value} (generation : UInt64) (h : IsPacket value) :
    ∃ packet, Packet.decode value generation = .ok packet := by
  obtain ⟨typeString, code, source, dest, userId, payload, namedPayload, rest, rfl, hMin, hMax, -,
    hSource, hDest, hUser, -, -⟩ := h
  exact Packet.decode_ok_iff.mpr ⟨typeString, code, source, dest, userId, payload, namedPayload,
    rest, rfl, hMin, hMax, Or.inl hSource, Or.inl hDest, hUser⟩

/-- So is what is not inspected. -/
theorem accepted_of_isUninspected {value : Value} (generation : UInt64) (h : IsUninspected value) :
    ∃ packet, Packet.decode value generation = .ok packet := by
  obtain ⟨typeString, code, source, dest, userId, payload, namedPayload, rest, rfl, hMin, hMax,
    hSource, hDest, hUser, -⟩ := h
  exact Packet.decode_ok_iff.mpr ⟨typeString, code, source, dest, userId, payload, namedPayload,
    rest, rfl, hMin, hMax, hSource, hDest, hUser⟩

/-- Every accepted value is a packet or one of these. -/
theorem isPacket_or_isUninspected {value : Value} {generation : UInt64} {packet : Packet}
    (h : Packet.decode value generation = .ok packet) : IsPacket value ∨ IsUninspected value := by
  obtain ⟨typeString, code, source, dest, userId, payload, namedPayload, rest, rfl, hMin, hMax,
    hSource, hDest, hUser⟩ := Packet.decode_ok_iff.mp ⟨packet, h⟩
  by_cases hBad : code ∉ namedMessageTypes ∨ IsUnnamedAddress source ∨ IsUnnamedAddress dest ∨
      payload.isTuple = false ∨ ¬IsDictOrNone namedPayload
  · exact Or.inr ⟨typeString, code, source, dest, userId, payload, namedPayload, rest, rfl, hMin,
      hMax, hSource, hDest, hUser, hBad⟩
  · simp only [not_or, not_not, Bool.not_eq_false] at hBad
    obtain ⟨hCode, hNamedSource, hNamedDest, hPayload, hNamed⟩ := hBad
    exact Or.inl ⟨typeString, code, source, dest, userId, payload, namedPayload, rest, rfl, hMin,
      hMax, hCode, hSource.resolve_right hNamedSource, hDest.resolve_right hNamedDest, hUser,
      hPayload, hNamed⟩

/-- `Decode` follows the grammar exactly on the values that are not of this shape. -/
theorem decodes_grammar_iff (value : Value) (generation : UInt64) :
    DecodesGrammar value generation ↔ ¬IsUninspected value := by
  constructor
  · rintro ⟨-, hThrows⟩ hLoose
    obtain ⟨e, hError⟩ := hThrows (not_isPacket_of_isUninspected hLoose)
    obtain ⟨packet, hAccepted⟩ := accepted_of_isUninspected generation hLoose
    rw [hError] at hAccepted
    cases hAccepted
  · intro hInspected
    refine ⟨accepted_of_isPacket generation, ?_⟩
    intro hOther
    cases hRun : Packet.decode value generation with
    | error e => exact ⟨e, rfl⟩
    | ok packet =>
      rcases isPacket_or_isUninspected hRun with hPacket | hLoose
      · exact absurd hPacket hOther
      · exact absurd hLoose hInspected

/-- The address of any node, as a value. -/
def anyAddressValue : Value := .object kAddressTypeName (.tuple [.int 8, .none, .none])

/-- A packet of message type 4, which is none of the documentation's. -/
def unknownPacketValue : Value :=
  .object [] (.tuple [.int 4, anyAddressValue, anyAddressValue, .none, .tuple [], .none, .none])

/-- The address of a service. -/
theorem isAddress_anyAddressValue : IsAddress anyAddressValue :=
  ⟨kAddressTypeName, 8, _, Or.inl rfl, rfl, .any (Or.inl rfl) (Or.inl rfl)⟩

/-- It is accepted. -/
theorem not_decodes_grammar : ¬ ∀ value generation, DecodesGrammar value generation := by
  intro h
  have hLoose : IsUninspected unknownPacketValue :=
    ⟨[], 4, anyAddressValue, anyAddressValue, .none, .tuple [], .none, [.none], rfl, by decide,
      by decide, Or.inl isAddress_anyAddressValue, Or.inl isAddress_anyAddressValue, Or.inl rfl,
      Or.inl (by decide)⟩
  obtain ⟨e, hError⟩ := (h unknownPacketValue 0).2 (not_isPacket_of_isUninspected hLoose)
  obtain ⟨packet, hAccepted⟩ := accepted_of_isUninspected 0 hLoose
  rw [hError] at hAccepted
  cases hAccepted

-- ---------------------------------------------------------------------------
-- Answering a packet
-- ---------------------------------------------------------------------------

namespace Address

/-- An accepted address of a documented kind has the fields of its kind only. -/
theorem kept_of_decoded {value : Value} {address : Address} (h : decode value = .ok address)
    (hNamed : ¬IsUnnamedAddress value) : address.IsDocumented ∧ address.kept = address := by
  obtain ⟨name, code, second, third, rest, hName, rfl, hItems⟩ := decode_ok_iff_items.mp h
  rcases AddressType.ofInt_cases code with ⟨-, hType⟩ | ⟨-, hType⟩ | ⟨-, hType⟩ | ⟨-, hType⟩ |
    ⟨-, hType⟩ | ⟨hUnnamed, -⟩
  · rw [hType] at hItems
    cases hItems
  · rw [hType] at hItems
    obtain ⟨_, _, _, _, -, -, -, -, rfl⟩ := decodeItems_node_iff.mp hItems
    exact ⟨Or.inl rfl, rfl⟩
  · rw [hType] at hItems
    obtain ⟨_, _, _, _, -, -, -, -, rfl⟩ := decodeItems_client_iff.mp hItems
    exact ⟨Or.inr (Or.inl rfl), rfl⟩
  · rw [hType] at hItems
    obtain ⟨_, _, -, -, rfl⟩ := decodeItems_broadcast_iff.mp hItems
    exact ⟨Or.inr (Or.inr (Or.inl rfl)), rfl⟩
  · rw [hType] at hItems
    obtain ⟨_, _, -, -, -, rfl⟩ := decodeItems_any_iff.mp hItems
    exact ⟨Or.inr (Or.inr (Or.inr rfl)), rfl⟩
  · exact absurd ⟨name, code, second, third, rest, hName, rfl, hUnnamed⟩ hNamed

/-- An address of an unnamed type is encoded as a tuple of one item, which is too short. -/
theorem decode_encode_of_unnamed {value : Value} {address : Address}
    (h : decode value = .ok address) (hUnnamed : IsUnnamedAddress value) :
    ∀ again, decode address.encode ≠ .ok again := by
  intro again hAgain
  obtain ⟨name, code, second, third, rest, -, rfl, hCode⟩ := hUnnamed
  obtain ⟨_, _, _, _, _, -, hSame, hItems⟩ := decode_ok_iff_items.mp h
  simp only [Value.object.injEq, Value.tuple.injEq, List.cons.injEq, Value.int.injEq] at hSame
  obtain ⟨-, rfl, -⟩ := hSame
  have hType : AddressType.ofInt code = .other code hCode := dif_neg hCode
  rw [hType] at hItems
  obtain rfl := Except.ok.inj hItems
  obtain ⟨_, _, _, _, _, -, hShort, -⟩ := decode_ok_iff_items.mp hAgain
  simp [encode, fields] at hShort

/-- An accepted address goes through `Encode` and `Decode` unless its type is unnamed. -/
theorem decode_encode_iff {value : Value} {address : Address} (h : decode value = .ok address) :
    decode address.encode = .ok address ↔ ¬IsUnnamedAddress value := by
  constructor
  · intro hAgain hUnnamed
    exact decode_encode_of_unnamed h hUnnamed address hAgain
  · intro hNamed
    obtain ⟨hDocumented, hKept⟩ := kept_of_decoded h hNamed
    rw [decode_encoded hDocumented, hKept]

end Address

namespace Client

/-- The answer of `HandlePingReq`. -/
def pingRsp (packet : Packet) : Packet where
  typeString := kPingRspType
  type := .pingRsp
  source := packet.dest
  dest := packet.source
  userId := packet.userId
  payload := some (.tuple [])

/-- A ping request is answered with the ping response. -/
theorem handlePingReq_eq (cipher : Cipher) (packet : Packet) :
    handlePingReq cipher packet = sendPacket cipher (pingRsp packet) := rfl

end Client

namespace Packet

/-- `Decode` takes the encoded packet apart again. -/
theorem decode_encode_eq {packet : Packet} {payload : Value} (generation : UInt64)
    (hSource : Address.decode packet.source.encode = .ok packet.source)
    (hDest : Address.decode packet.dest.encode = .ok packet.dest)
    (hPayload : packet.payload = some payload) (hNamed : packet.namedPayload ≠ some .none) :
    decode packet.encode generation = .ok { packet with generation } := by
  have hUser := unlessNone_intOrNone packet.userId
  have hIsNone : (if (packet.namedPayload.getD .none).isNone then none
      else some (packet.namedPayload.getD .none)) = packet.namedPayload := by
    cases hField : packet.namedPayload with
    | none => rfl
    | some named =>
      have hSome : named.isNone = false := by
        cases hNone : named.isNone with
        | false => rfl
        | true =>
          rw [isNone_iff] at hNone
          rw [hField, hNone] at hNamed
          exact absurd rfl hNamed
      rw [Option.getD_some, hSome]
      rfl
  refine decode_ok_iff_fields.mpr ⟨packet.typeString, packet.type.toInt, packet.source.encode,
    packet.dest.encode, intOrNone packet.userId, packet.payload.getD (.tuple []),
    packet.namedPayload.getD .none, [.none], packet.source, packet.dest, packet.userId, rfl,
    by decide, by decide, hSource, hDest, hUser, ?_⟩
  rw [MessageType.ofInt_toInt, hIsNone, hPayload]
  show _ = { packet with payload := some payload, generation }
  rw [← hPayload]

/-- The packet comes back from `Encode` and `Decode` with all that it carries, and so does
the answer to a ping with the addresses swapped. -/
def Answerable (packet : Packet) : Prop :=
  ∀ generation,
    (∃ again, decode packet.encode generation = .ok again ∧ again.type = packet.type ∧
      again.source = packet.source ∧ again.dest = packet.dest ∧ again.userId = packet.userId ∧
      again.payload = packet.payload ∧ again.namedPayload = packet.namedPayload) ∧
    ∃ answer, decode (Client.pingRsp packet).encode generation = .ok answer ∧
      answer.type = .pingRsp ∧ answer.source = packet.dest ∧ answer.dest = packet.source

end Packet

/-- Neither address of the value is of an unnamed type. -/
def AddressesNamed (value : Value) : Prop :=
  ∀ typeString type source dest rest,
    value = .object typeString (.tuple (type :: source :: dest :: rest)) →
      ¬IsUnnamedAddress source ∧ ¬IsUnnamedAddress dest

/-- An accepted packet can be answered exactly if its addresses are of documented kinds. -/
theorem packet_answerable_iff {value : Value} {generation : UInt64} {packet : Packet}
    (h : Packet.decode value generation = .ok packet) :
    packet.Answerable ↔ AddressesNamed value := by
  obtain ⟨typeString, code, source, dest, userId, payload, namedPayload, rest, src, dst, user, rfl,
    -, -, hSource, hDest, -, rfl⟩ := Packet.decode_ok_iff_fields.mp h
  have hSourceIff := Address.decode_encode_iff hSource
  have hDestIff := Address.decode_encode_iff hDest
  constructor
  · intro hAnswerable typeString' type source' dest' rest' hSame
    simp only [Value.object.injEq, Value.tuple.injEq, List.cons.injEq] at hSame
    obtain ⟨-, -, rfl, rfl, -⟩ := hSame
    obtain ⟨again, hAgain, -, hSameSource, hSameDest, -⟩ := (hAnswerable generation).1
    obtain ⟨_, _, _, _, _, _, _, _, src', dst', _, hValue, -, -, hSrc, hDst, -, rfl⟩ :=
      Packet.decode_ok_iff_fields.mp hAgain
    simp only [Packet.encode, Value.object.injEq, Value.tuple.injEq, List.cons.injEq] at hValue
    obtain ⟨-, -, rfl, rfl, -⟩ := hValue
    refine ⟨hSourceIff.mp ?_, hDestIff.mp ?_⟩
    · exact hSrc.trans (congrArg Except.ok hSameSource)
    · exact hDst.trans (congrArg Except.ok hSameDest)
  · intro hNamed generation'
    obtain ⟨hNamedSource, hNamedDest⟩ := hNamed _ _ _ _ _ rfl
    have hSrc := hSourceIff.mpr hNamedSource
    have hDst := hDestIff.mpr hNamedDest
    have hKept : (if namedPayload.isNone = true then none else some namedPayload) ≠
        some Value.none := by
      cases hNone : namedPayload.isNone with
      | true => simp
      | false =>
        intro hEq
        rw [if_neg (by simp)] at hEq
        rw [Option.some.inj hEq] at hNone
        cases hNone
    refine ⟨⟨_, Packet.decode_encode_eq generation' hSrc hDst rfl hKept, rfl, rfl, rfl, rfl, rfl,
      rfl⟩, _, Packet.decode_encode_eq generation' hDst hSrc rfl ?_, rfl, rfl, rfl⟩
    intro hEq
    cases hEq

/-- A ping between two nodes of which nothing else is known. -/
def pingReqValue : Value :=
  .object [] (.tuple [.int 20, anyAddressValue, anyAddressValue, .none, .tuple [], .none, .none])

theorem packet_answerable_iff_pingReqValue :
    ∃ packet, Packet.decode pingReqValue 0 = .ok packet ∧
      (packet.Answerable ↔ AddressesNamed pingReqValue) := by
  have hLoose : IsLooseAddress anyAddressValue := Or.inl isAddress_anyAddressValue
  obtain ⟨packet, hAccepted⟩ := (@Packet.decode_ok_iff _ 0).mpr
    ⟨[], 20, anyAddressValue, anyAddressValue, .none, .tuple [], .none, [.none], rfl, by decide,
      by decide, hLoose, hLoose, Or.inl rfl⟩
  exact ⟨packet, hAccepted, packet_answerable_iff hAccepted⟩

/-- An address of type 3. -/
def unnamedAddressValue : Value :=
  .object kAddressTypeName (.tuple [.int 3, .none, .none])

/-- A ping from such an address is accepted, but the packet cannot be sent back. -/
theorem not_packet_answerable : ¬ ∀ value generation packet,
    Packet.decode value generation = .ok packet → packet.Answerable := by
  intro h
  have hUnnamed : IsUnnamedAddress unnamedAddressValue :=
    ⟨kAddressTypeName, 3, .none, .none, [], Or.inl rfl, rfl, by decide⟩
  have hLoose : IsLooseAddress anyAddressValue := Or.inl isAddress_anyAddressValue
  obtain ⟨packet, hAccepted⟩ := (@Packet.decode_ok_iff _ 0).mpr
    ⟨[], 20, unnamedAddressValue, anyAddressValue, .none, .tuple [], .none, [.none], rfl,
      by decide, by decide, Or.inr hUnnamed, hLoose, Or.inl rfl⟩
  obtain ⟨typeString, code, source, dest, userId, payload, namedPayload, rest, src, dst, user,
    hValue, -, -, hSource, -, -, rfl⟩ := Packet.decode_ok_iff_fields.mp hAccepted
  simp only [Value.object.injEq, Value.tuple.injEq, List.cons.injEq] at hValue
  obtain ⟨-, -, rfl, -⟩ := hValue
  obtain ⟨again, hAgain, -⟩ := (h _ _ _ hAccepted 0).1
  obtain ⟨_, _, _, _, _, _, _, _, src', _, _, hEncoded, -, -, hSrc, -, -, -⟩ :=
    Packet.decode_ok_iff_fields.mp hAgain
  simp only [Packet.encode, Value.object.injEq, Value.tuple.injEq, List.cons.injEq] at hEncoded
  obtain ⟨-, -, rfl, -⟩ := hEncoded
  exact Address.decode_encode_of_unnamed hSource hUnnamed src' hSrc

end Ithax.Network
