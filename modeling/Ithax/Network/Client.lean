import Ithax.Network.Connection

/-!
# The client

`network/client.cpp`. The client has one connection and one handshake and drives
them through `EstablishSession`; `Connect` retries it.

A `CallRsp` handler is user code. `Receive` calls it last, so what the handler does
to the client is the calls that follow the `Receive` in a run.
-/

namespace Ithax.Network

open Ithax.Lib Ithax.Marshal

/-- The type strings of the packets a client sends. -/
def kPingReqType : Bytes := ascii "macho.PingReq"
def kPingRspType : Bytes := ascii "macho.PingRsp"
def kCallReqType : Bytes := ascii "macho.CallReq"
def kNotificationType : Bytes := ascii "macho.Notification"

/-- The client's timings, as `client.h` sets them. -/
def DEFAULT_HEARTBEAT_INTERVAL_MS : UInt32 := 30000
def DEFAULT_RECONNECT_DELAY_MS : UInt32 := 1000
def MAX_RECONNECT_ATTEMPTS : UInt32 := 3

/-- `Client`, with its connection, the socket below it and the packets its handler was given. -/
structure Client where
  host : String
  link : Link := {}
  handshake : HandshakeState := .waitVersion
  heartbeatIntervalMs : UInt32 := DEFAULT_HEARTBEAT_INTERVAL_MS
  reconnectAttempts : UInt32 := MAX_RECONNECT_ATTEMPTS
  reconnectDelayMs : UInt32 := DEFAULT_RECONNECT_DELAY_MS
  /-- `m_last_heartbeat`, in milliseconds of the steady clock. -/
  lastHeartbeat : Int := 0
  hasCallRspHandler : Bool := false
  /-- What the handler was called with, oldest first. -/
  handled : List (Packet × Option Value) := []
  connected : Bool := false

/-- A method of the client: it may throw, and keeps what it did before. -/
abbrev ClientM := EStateM NetworkError Client

namespace Client

/-- A method of the connection. -/
def onLink {α : Type} (m : LinkM α) : ClientM α :=
  zoom link (fun c link => { c with link }) id m

/-- A method of the handshake. -/
def onHandshake {α : Type} (m : HandshakeM α) : ClientM α :=
  zoom handshake (fun c handshake => { c with handshake }) .handshake m

/-- `IsConnected`. -/
def isConnected (c : Client) : Bool := c.connected

/-- `Generation`. -/
def generation (c : Client) : UInt64 := c.link.connection.generation

/-- `Disconnect`. -/
def disconnect (c : Client) : Client := { c with link := c.link.disconnect, connected := false }

-- ---------------------------------------------------------------------------
-- Establishing a session
-- ---------------------------------------------------------------------------

/-- The version block that the client offers. -/
def clientVersion : VersionExchange where
  birthday := 170472
  machoVersion := 496
  userCount := 0
  versionNumber := kClientVersion
  buildVersion := 3396210
  projectVersion := ascii "V24.01@ccp"

/-- The key material of the client. It is fixed in the source. -/
def cryptoRequest : CryptoRequest where
  keyVersion := ascii "placebo"
  hasSessionKey := true
  sessionKey := List.replicate AES_KEY_BYTES 0x55
  hasSessionIv := true
  sessionIv := List.replicate AES_IV_BYTES 0x66

/-- The key has the length that AES-256 asks for. -/
theorem length_sessionKey : cryptoRequest.sessionKey.length = AES_KEY_BYTES := List.length_replicate

/-- The IV has the length of a block. -/
theorem length_sessionIv : cryptoRequest.sessionIv.length = AES_IV_BYTES := List.length_replicate

/-- What `SetSessionCrypto` is given. -/
def sessionCrypto : SessionCrypto where
  key := cryptoRequest.sessionKey
  iv := cryptoRequest.sessionIv
  key_length := length_sessionKey
  iv_length := length_sessionIv

/-- The login that the client sends. -/
def loginChallenge : LoginChallenge where
  userName := ascii "ithax"
  userPasswordHash := ascii "ithax"
  userLanguageId := ascii "EN"

/-- The answer to the server's challenge. -/
def handshakeResult : HandshakeResult where
  challengeResponseHash := ascii "55087"
  funcOutput := []
  funcResult := [0x74, 0x04, 0x00, 0x00, 0x00, 0x4E, 0x6F, 0x6E, 0x65]

variable (cipher : Cipher)

/-- One marshaled value as a frame. -/
def sendMarshal (value : Value) : ClientM Unit := onLink (Link.sendMarshal cipher value)

/-- The next frame's value. -/
def receiveMarshal : ClientM Value := onLink (Link.receiveMarshal cipher)

/-- The part of `EstablishSession` before the session crypto is installed. -/
def negotiateCrypto : ClientM Unit := do
  onLink (Link.connect (← get).host)
  modify fun c => { c with handshake := .waitVersion }
  onHandshake (Handshake.onVersionExchangeServer (← receiveMarshal cipher))
  sendMarshal cipher (buildVersionExchangeClient clientVersion)
  sendMarshal cipher (buildVkCommand (ascii "ithax-vip-key"))
  onHandshake Handshake.onVkSent
  sendMarshal cipher (buildCryptoRequest cryptoRequest)
  onHandshake Handshake.onCryptoRequestSent
  onHandshake (Handshake.onOkCc (← receiveMarshal cipher))

/-- The part after it. -/
def authenticate : ClientM Unit := do
  sendMarshal cipher (buildLoginChallenge loginChallenge)
  onHandshake Handshake.onLoginChallengeSent
  onHandshake (Handshake.onPasswordVersion (← receiveMarshal cipher))
  onHandshake (Handshake.onCryptoServerHandshake (← receiveMarshal cipher))
  sendMarshal cipher (buildHandshakeResult handshakeResult)
  onHandshake Handshake.onHandshakeResultSent
  onHandshake (Handshake.onCryptoHandshakeAck (← receiveMarshal cipher))
  if Handshake.isComplete (← get).handshake = false then
    throw (.client "handshake did not complete")

/-- `EstablishSession`. The session crypto is installed between the two halves. -/
def establishSession : ClientM Unit := do
  negotiateCrypto cipher
  onLink (Link.setSessionCrypto sessionCrypto)
  authenticate cipher

/-- `rounds` rounds of the retry loop, after `attempt` failed ones: `none` when it
is still in the loop. -/
def connectLoop (now : Int) : Nat → UInt32 → ClientM (Option Unit)
  | 0, _ => return none
  | rounds + 1, attempt => fun c =>
    match establishSession cipher c with
    | .ok _ c => .ok (some ()) { c with connected := true, lastHeartbeat := now }
    | .error _ c =>
      let c := { c with link := c.link.disconnect }
      if attempt + 1 > c.reconnectAttempts then
        .error (.reconnect "connection attempts exhausted") c
      else connectLoop now rounds (attempt + 1) c

/-- `Connect`, with `rounds` rounds of its retry loop. -/
def connect (now : Int) (rounds : Nat) : ClientM (Option Unit) := do
  if (← get).connected then throw (.client "client is already connected")
  connectLoop cipher now rounds 0

-- ---------------------------------------------------------------------------
-- Sending
-- ---------------------------------------------------------------------------

/-- `MakeAnyAddress`. -/
def makeAnyAddress (service : Bytes) : Address := { type := .any, service }

/-- The check that sending and receiving begin with. -/
def requireConnected : ClientM Unit := do
  if (← get).connected = false then throw (.client "client is not connected")

/-- `SendPacket`. -/
def sendPacket (packet : Packet) : ClientM Unit := sendMarshal cipher packet.encode

/-- `SendCall`: the four parts of a call travel as a substream of the payload. -/
def sendCall (service method : Bytes) (args : List Value) (kwargs : Option Value) :
    ClientM Unit := do
  requireConnected
  let body ← fromExcept .marshal (encode (.tuple
    [.string service, .string method, .tuple args, kwargs.getD .none]))
  sendPacket cipher {
    typeString := kCallReqType
    type := .callReq
    source := makeAnyAddress service
    dest := makeAnyAddress (ascii "machoNet")
    payload := some (.tuple [.tuple [.int 0, .subStream body]]) }

/-- `SendPing`. -/
def sendPing : ClientM Unit := do
  requireConnected
  sendPacket cipher {
    typeString := kPingReqType
    type := .pingReq
    source := makeAnyAddress (ascii "ping")
    dest := makeAnyAddress (ascii "machoNet")
    payload := some (.tuple []) }

/-- `SendNotification`. -/
def sendNotification (type : Bytes) (args : List Value) : ClientM Unit := do
  requireConnected
  sendPacket cipher {
    typeString := kNotificationType
    type := .notification
    source := makeAnyAddress type
    dest := makeAnyAddress (ascii "machoNet")
    payload := some (.tuple args) }

/-- `PumpOnce` at the time `now`. -/
def pumpOnce (now : Int) : ClientM Unit := do
  let c ← get
  if c.connected then
    if now - c.lastHeartbeat ≥ c.heartbeatIntervalMs.toNat then
      sendPing cipher
      modify fun c => { c with lastHeartbeat := now }

-- ---------------------------------------------------------------------------
-- Receiving
-- ---------------------------------------------------------------------------

/-- `HandlePingReq`: the answer goes back along the addresses of the request. -/
def handlePingReq (packet : Packet) : ClientM Unit :=
  sendPacket cipher {
    typeString := kPingRspType
    type := .pingRsp
    source := packet.dest
    dest := packet.source
    userId := packet.userId
    payload := some (.tuple []) }

/-- The substream of a call response, directly in the payload or one tuple down. -/
def callRspBody (packet : Packet) : Option Bytes :=
  match packet.payload with
  | some (.tuple (.subStream data :: _)) => some data
  | some (.tuple (.tuple (.subStream data :: _) :: _)) => some data
  | _ => none

/-- The value that `HandleCallRsp` hands over, when there is one. -/
def decodeCallRsp (packet : Packet) : ClientM (Option Value) :=
  match callRspBody packet with
  | none => return none
  | some data => return some (← fromExcept .marshal (decode data true))

/-- `HandleCallRsp`. Without a handler the response is not even decoded. -/
def handleCallRsp (packet : Packet) : ClientM Unit := do
  if (← get).hasCallRspHandler then
    let result ← decodeCallRsp packet
    modify fun c => { c with handled := c.handled ++ [(packet, result)] }

/-- `HandleIncoming`; the handlers of the other types only print. -/
def handleIncoming (value : Value) : ClientM Unit := do
  let packet ← fromExcept .packet (Packet.decode value (← get).generation)
  match packet.type with
  | .pingReq => handlePingReq cipher packet
  | .callRsp => handleCallRsp packet
  | _ => return ()

/-- `Receive`. What it throws leaves the connection as it is. -/
def receive : ClientM Value := do
  requireConnected
  let value ← receiveMarshal cipher
  handleIncoming cipher value
  return value

-- ---------------------------------------------------------------------------
-- Runs
-- ---------------------------------------------------------------------------

end Client

/-- The public calls. `connect` is given the time at which it succeeds and how many
rounds of its retry loop are run. -/
inductive ClientCall where
  | connect (now : Int) (rounds : Nat)
  | disconnect
  | setHeartbeatInterval (intervalMs : UInt32)
  | setReconnectPolicy (maxAttempts delayMs : UInt32)
  | setCallRspHandler (installed : Bool)
  | sendCall (service method : Bytes) (args : List Value) (kwargs : Option Value)
  | sendPing
  | sendNotification (type : Bytes) (args : List Value)
  | receive
  | pumpOnce (now : Int)

namespace Client

/-- The client after one call, whether it returned or threw. -/
def call (cipher : Cipher) (c : Client) : ClientCall → Client
  | .connect now rounds => finalState (connect cipher now rounds c)
  | .disconnect => c.disconnect
  | .setHeartbeatInterval intervalMs => { c with heartbeatIntervalMs := intervalMs }
  | .setReconnectPolicy maxAttempts delayMs =>
    { c with reconnectAttempts := maxAttempts, reconnectDelayMs := delayMs }
  | .setCallRspHandler installed => { c with hasCallRspHandler := installed }
  | .sendCall service method args kwargs =>
    finalState (sendCall cipher service method args kwargs c)
  | .sendPing => finalState (sendPing cipher c)
  | .sendNotification type args => finalState (sendNotification cipher type args c)
  | .receive => finalState (receive cipher c)
  | .pumpOnce now => finalState (pumpOnce cipher now c)

/-- A fresh client with the outside it will meet. -/
def create (host : String) (outside : Outside) : Client :=
  { host, link := { network := outside } }

/-- The client after some calls, whatever they threw. -/
def runCalls (cipher : Cipher) (c : Client) (calls : List ClientCall) : Client :=
  calls.foldl (call cipher) c

end Client

end Ithax.Network
