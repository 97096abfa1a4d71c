import Ithax.Lib.Exceptional
import Ithax.Marshal.Decode
import Ithax.Marshal.Encode
import Ithax.Network.FrameStream
import Ithax.Network.Handshake
import Ithax.Network.Packet
import Ithax.Network.SessionCrypto

/-!
# Connections

`network/connection.cpp`. What the operating system, OpenSSL and the peer do is a
script of answers, `Outside`: each call takes the next answer of its kind. A call of
the socket interface that finds none left fails, `recv` by its timeout. Every
behaviour they can show in a finite run is such a script.
-/

namespace Ithax.Network

open Ithax.Lib

/-- The exceptions of the network layer. -/
inductive NetworkError where
  | connection (message : String)
  | loopback (message : String)
  | closed (message : String)
  | timeout (message : String)
  | frame (e : FrameError)
  | crypto (e : SessionCryptoError)
  | marshal (e : Stop Marshal.MarshalError)
  | handshake (e : HandshakeError)
  | packet (e : PacketFormatError)
  | client (message : String)
  | reconnect (message : String)
  deriving DecidableEq, Repr

-- ---------------------------------------------------------------------------
-- The outside
-- ---------------------------------------------------------------------------

/-- An entry of `getaddrinfo`. -/
inductive SockAddr where
  | inet (addr : UInt32)
  | inet6 (bytes : Bytes)
  | unspec
  deriving DecidableEq, Repr

/-- 127.0.0.0/8 and `::1`. -/
def SockAddr.isLoopback : SockAddr → Bool
  | .inet addr => addr >>> 24 = 127
  | .inet6 bytes => bytes = List.replicate 15 0 ++ [1]
  | .unspec => false

/-- What `recv` does: `data []` is a return of 0, the peer closed. -/
inductive Received where
  | data (bytes : Bytes)
  | timedOut
  | failed
  deriving DecidableEq, Repr

/-- The answers still to come, by kind of call: `getaddrinfo`, `socket`, `connect`,
`send`, `recv` and the EVP functions of one `Encrypt` or `Decrypt`. -/
structure Outside where
  lookups : List (Option (List SockAddr)) := []
  sockets : List (Option Nat) := []
  connects : List Bool := []
  sends : List Int := []
  receives : List Received := []
  faults : List (Option EvpFault) := []

/-- What one `SendMarshal` put on the socket, with the value it was called for and
the session crypto it found. -/
structure Transmission where
  value : Marshal.Value
  crypto : Option SessionCrypto
  written : Bytes

/-- `Connection`, with a number for its socket. -/
structure Connection where
  generation : UInt64 := 0
  connected : Bool := false
  crypto : Option SessionCrypto := none
  decoder : FrameDecoder := {}
  /-- `m_socket`, with 0 for the null pointer. -/
  socket : Nat := 0

/-- A connection, the address its socket is connected to, the outside and the
record of what was sent. -/
structure Link where
  connection : Connection := {}
  peer : Option SockAddr := none
  network : Outside := {}
  wire : List Transmission := []

/-- A method of the connection, with the outside it uses up. -/
abbrev LinkM := EStateM NetworkError Link

namespace Link

/-- The next answer of one kind. -/
def draw {α : Type} (view : Outside → List α) (put : Outside → List α → Outside)
    (exhausted : α) : LinkM α := fun l =>
  match view l.network with
  | [] => .ok exhausted l
  | answer :: rest => .ok answer { l with network := put l.network rest }

/-- What the resolver answers next. -/
def nextLookup : LinkM (Option (List SockAddr)) :=
  draw Outside.lookups (fun n lookups => { n with lookups }) none

/-- What `socket` answers next. -/
def nextSocket : LinkM (Option Nat) :=
  draw Outside.sockets (fun n sockets => { n with sockets }) none

/-- What `connect` answers next. -/
def nextConnect : LinkM Bool :=
  draw Outside.connects (fun n connects => { n with connects }) false

/-- The fault of the next `Encrypt` or `Decrypt`, if it has one. -/
def nextFault : LinkM (Option EvpFault) :=
  draw Outside.faults (fun n faults => { n with faults }) none

-- ---------------------------------------------------------------------------
-- Connecting
-- ---------------------------------------------------------------------------

/-- `IsLoopbackAddress`: by its name, or by some address that it resolves to. -/
def isLoopbackAddress (host : String) : LinkM Bool := do
  if host = "127.0.0.1" ∨ host = "localhost" ∨ host = "::1" then return true
  match ← nextLookup with
  | none => return false
  | some entries => return entries.any SockAddr.isLoopback

/-- `ValidateLoopbackHost`. -/
def validateLoopbackHost (host : String) : LinkM Unit := do
  if !(← isLoopbackAddress host) then
    throw (.loopback "the client network path is loopback-only by policy")

/-- The loop over the resolved entries, up to the first that connects. -/
def openSocket : List SockAddr → LinkM (Option (Nat × SockAddr))
  | [] => return none
  | entry :: entries => do
    match ← nextSocket with
    | none => openSocket entries
    | some handle =>
      if ← nextConnect then return some (handle, entry)
      openSocket entries

/-- `Connect`: the host is resolved a second time. -/
def connect (host : String) : LinkM Unit := do
  validateLoopbackHost host
  if (← get).connection.connected then
    throw (.connection "connection is already established")
  match ← nextLookup with
  | none => throw (.connection "address resolution failed")
  | some entries =>
    match ← openSocket entries with
    | none => throw (.connection "connection attempt failed")
    | some (handle, address) =>
      modify fun l => { l with
        peer := some address
        connection := {
          socket := handle
          connected := true
          generation := l.connection.generation + 1
          decoder := {}
          crypto := none } }

/-- `Disconnect`. -/
def disconnect (l : Link) : Link :=
  { l with connection := { l.connection with socket := 0, connected := false, crypto := none } }

/-- `SetSessionCrypto`. -/
def setSessionCrypto (crypto : SessionCrypto) : LinkM Unit :=
  modify fun l => { l with connection := { l.connection with crypto := some crypto } }

-- ---------------------------------------------------------------------------
-- Sending
-- ---------------------------------------------------------------------------

/-- `RequireEstablished`. -/
def requireEstablished : LinkM Unit := do
  let l ← get
  if l.connection.connected = false ∨ l.connection.socket = 0 then
    throw (.closed "connection is not established")

/-- Runs `m` on the session crypto; without one the payload stays as it is. -/
def onCrypto (payload : Bytes) (m : Option EvpFault → CryptoM Bytes) : LinkM Bytes := do
  match (← get).connection.crypto with
  | none => return payload
  | some crypto =>
    let fault ← nextFault
    zoom (fun _ => crypto)
      (fun l crypto => { l with connection := { l.connection with crypto := some crypto } })
      .crypto (m fault)

/-- The loop around `send` on the bytes of a frame: what reached the socket, whether
all of it did, and the answers that are left. -/
def sendLoop : List Int → Bytes → Bytes × Bool × List Int
  | sends, [] => ([], true, sends)
  | [], _ :: _ => ([], false, [])
  | written :: sends, b :: bytes =>
    if written ≤ 0 then ([], false, sends)
    else
      let n := written.toNat
      let (out, done, rest) := sendLoop sends ((b :: bytes).drop n)
      ((b :: bytes).take n ++ out, done, rest)

/-- `SendMarshal`. -/
def sendMarshal (cipher : Cipher) (value : Marshal.Value) : LinkM Unit := do
  requireEstablished
  let crypto := (← get).connection.crypto
  let marshaled ← fromExcept .marshal (Marshal.encode value)
  let payload ← onCrypto marshaled fun fault => SessionCrypto.encrypt cipher fault marshaled
  let frame ← fromExcept .frame (encodeFrame payload)
  let (written, done, sends) := sendLoop (← get).network.sends frame
  modify fun l => { l with
    network := { l.network with sends }
    wire := l.wire ++ [{ value, crypto, written }] }
  if done = false then throw (.closed "send failed")

-- ---------------------------------------------------------------------------
-- Receiving
-- ---------------------------------------------------------------------------

/-- A method of the frame decoder. -/
def onDecoder {α : Type} (m : FrameM α) : LinkM α :=
  zoom (fun l => l.connection.decoder)
    (fun l decoder => { l with connection := { l.connection with decoder } }) .frame m

/-- What is left of what the peer sends. -/
def setReceives (receives : List Received) : LinkM Unit :=
  modify fun l => { l with network := { l.network with receives } }

/-- The loop of `ReceiveMarshal` up to the next complete frame. -/
def receiveFrame (receives : List Received) : LinkM Bytes := do
  match ← onDecoder FrameDecoder.tryPopFrame with
  | some payload => return payload
  | none =>
    match receives with
    | [] => throw (.timeout "receive timed out")
    | .timedOut :: rest =>
      setReceives rest
      throw (.timeout "receive timed out")
    | .failed :: rest =>
      setReceives rest
      throw (.closed "receive failed")
    | .data [] :: rest =>
      setReceives rest
      throw (.closed "peer closed the connection")
    | .data (b :: bytes) :: rest =>
      setReceives rest
      onDecoder (FrameDecoder.push ((b :: bytes).take kRecvChunkBytes))
      receiveFrame rest

/-- `ReceiveMarshal`. -/
def receiveMarshal (cipher : Cipher) : LinkM Marshal.Value := do
  requireEstablished
  let frame ← receiveFrame (← get).network.receives
  let payload ← onCrypto frame fun fault => SessionCrypto.decrypt cipher fault frame
  fromExcept .marshal (Marshal.decode payload true)

end Link

end Ithax.Network
