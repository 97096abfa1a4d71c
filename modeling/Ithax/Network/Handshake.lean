import Ithax.Marshal.StringTable

/-!
# The session handshake

`network/handshake.cpp`: the state machine of the client side, the messages it
sends and the checks it makes on the answers.
-/

namespace Ithax.Network

open Ithax.Lib Ithax.Marshal

/-- `HandshakeState`: what comes next on the side of the client. -/
inductive HandshakeState where
  | waitVersion | waitCommand | waitCrypto | waitAuth | waitFuncResult | session
  deriving DecidableEq, Repr

/-- The subclasses of `HandshakeError`, each with its message. -/
inductive HandshakeError where
  | protocol (message : String)
  | state (message : String)
  deriving DecidableEq, Repr

/-- A handler throws, or goes on from the state that it finds. -/
abbrev HandshakeM := EStateM HandshakeError HandshakeState

-- ---------------------------------------------------------------------------
-- Messages
-- ---------------------------------------------------------------------------

/-- `kMachoVersion`, which is sent with the login. -/
def kMachoVersion : Int64 := 496
/-- `kBuildVersion`, which is sent with the login. -/
def kBuildVersion : Int64 := 3396210
/-- The bits of `24.01`. -/
def kClientVersion : UInt64 := 0x4038028F5C28F5C3
/-- `kOkCc`: the answer to a crypto request that the server accepts. -/
def kOkCc : Bytes := ascii "OK CC"

/-- `VersionExchange`, with the defaults of the source. -/
structure VersionExchange where
  birthday : Int64 := 0
  machoVersion : Int64 := 0
  userCount : Int64 := 0
  versionNumber : UInt64 := 0
  buildVersion : Int64 := 0
  projectVersion : Bytes := []

/-- `CryptoRequest`: the session key and its initialisation vector are sent when they are set. -/
structure CryptoRequest where
  keyVersion : Bytes := []
  sessionKey : Bytes := List.replicate 32 0
  sessionIv : Bytes := List.replicate 16 0
  hasSessionKey : Bool := false
  hasSessionIv : Bool := false

/-- `LoginChallenge`: what the client knows of its user. -/
structure LoginChallenge where
  userName : Bytes := []
  userPasswordHash : Bytes := []
  userLanguageId : Bytes := []
  userAffiliateId : Int64 := 0

/-- `HandshakeResult`: the hash of the response, and output and result of the function. -/
structure HandshakeResult where
  challengeResponseHash : Bytes := []
  funcOutput : Bytes := []
  funcResult : Bytes := []

/-- The version exchange of the client is a tuple of six. -/
def buildVersionExchangeClient (version : VersionExchange) : Value :=
  .tuple [.int version.birthday, .int version.machoVersion, .int version.userCount,
    .real version.versionNumber, .int version.buildVersion, .string version.projectVersion]

/-- The command `VK` with the key. -/
def buildVkCommand (vipKey : Bytes) : Value :=
  .tuple [.none, .string (ascii "VK"), .string vipKey]

/-- The key version, and a dictionary of what is set. -/
def buildCryptoRequest (request : CryptoRequest) : Value :=
  .tuple [.string request.keyVersion, .dict (
    (if request.hasSessionKey then
      [⟨.string (ascii "crypting_sessionkey"), .buffer request.sessionKey⟩] else []) ++
    (if request.hasSessionIv then
      [⟨.string (ascii "crypting_sessioniv"), .buffer request.sessionIv⟩] else []))]

/-- An empty string, and a dictionary with the user and the versions of the client. -/
def buildLoginChallenge (challenge : LoginChallenge) : Value :=
  .tuple [.string [], .dict
    [⟨.string (ascii "user_name"), .wString challenge.userName⟩,
      ⟨.string (ascii "user_password_hash"), .string challenge.userPasswordHash⟩,
      ⟨.string (ascii "user_languageid"), .wString challenge.userLanguageId⟩,
      ⟨.string (ascii "user_affiliateid"), .int challenge.userAffiliateId⟩,
      ⟨.string (ascii "macho_version"), .int kMachoVersion⟩,
      ⟨.string (ascii "boot_version"), .real kClientVersion⟩,
      ⟨.string (ascii "boot_build"), .int kBuildVersion⟩,
      ⟨.string (ascii "boot_codename"), .string (ascii "Ithax")⟩,
      ⟨.string (ascii "boot_region"), .string (ascii "ccp")⟩]]

/-- A tuple of the three parts. -/
def buildHandshakeResult (result : HandshakeResult) : Value :=
  .tuple [.string result.challengeResponseHash, .string result.funcOutput,
    .buffer result.funcResult]

-- ---------------------------------------------------------------------------
-- The state machine
-- ---------------------------------------------------------------------------

namespace Handshake

/-- `RequireState`: every handler asks first whether it is its turn. -/
def requireState (expected : HandshakeState) : HandshakeM Unit := fun state =>
  if state ≠ expected then
    .error (.state "handshake message arrived out of order") state
  else .ok () state

/-- The checks on an answer look at the value only. -/
def requireTuple (value : Value) (minSize : Nat) : HandshakeM Unit :=
  match value with
  | .tuple items =>
    -- a longer tuple passes: what is not looked at may be there
    if items.length < minSize then throw (.protocol "expected a tuple") else pure ()
  | _ => throw (.protocol "expected a tuple")

/-- What is no dictionary is refused. -/
def requireDict (value : Value) : HandshakeM Unit :=
  if value.isDict then pure () else throw (.protocol "expected a dict")

/-- `RequireString`, with the value of the string. -/
def requireString : Value → HandshakeM Bytes
  | .string s => pure s
  | _ => throw (.protocol "expected a string")

/-- `RequireInt`, with the value of the integer. -/
def requireInt : Value → HandshakeM Int64
  | .int i => pure i
  | _ => throw (.protocol "expected an int")

/-- The command `VK` is out, and the crypto request is next. -/
def onVkSent : HandshakeM Unit := do
  requireState .waitCommand
  set HandshakeState.waitCrypto

/-- It is only checked that the crypto request was due. -/
def onCryptoRequestSent : HandshakeM Unit := requireState .waitCrypto

/-- It is only checked that the login was due. -/
def onLoginChallengeSent : HandshakeM Unit := requireState .waitAuth

/-- It is only checked that the result was due. -/
def onHandshakeResultSent : HandshakeM Unit := requireState .waitFuncResult

/-- The version exchange of the server is a tuple of seven or more. -/
def onVersionExchangeServer (value : Value) : HandshakeM Unit := do
  requireState .waitVersion
  requireTuple value 7
  set HandshakeState.waitCommand

/-- The server has accepted the crypto request, or the string is another one. -/
def onOkCc (value : Value) : HandshakeM Unit := do
  requireState .waitCrypto
  let answer ← requireString value
  if answer ≠ kOkCc then throw (.protocol "crypto request was not acknowledged")
  set HandshakeState.waitAuth

/-- The only password version is 2. The state stays as it is. -/
def onPasswordVersion (value : Value) : HandshakeM Unit := do
  requireState .waitAuth
  let version ← requireInt value
  -- `m_state` is not moved on, so the server handshake is due in the same state
  if version ≠ 2 then throw (.protocol "unexpected password version")

/-- The handshake of the server is a tuple of four or more. -/
def onCryptoServerHandshake (value : Value) : HandshakeM Unit := do
  requireState .waitAuth
  requireTuple value 4
  set HandshakeState.waitFuncResult

/-- The acknowledgement, a dictionary, opens the session. -/
def onCryptoHandshakeAck (value : Value) : HandshakeM Unit := do
  requireState .waitFuncResult
  requireDict value
  set HandshakeState.session

/-- The session is open. -/
def isComplete (state : HandshakeState) : Bool := state = .session

end Handshake

end Ithax.Network
