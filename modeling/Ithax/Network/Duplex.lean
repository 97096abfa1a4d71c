import Ithax.Network.SessionCrypto
import Mathlib.Logic.Function.Basic

/-!
# Two session endpoints

Two endpoints with the same key and first vector, and a reliable FIFO channel in
each direction. Each endpoint has one vector for both directions, so the two stay
together as long as they take turns, and only then: a message that crosses another
is decrypted under a vector it was not encrypted under.
-/

namespace Ithax.Network

open Ithax.Lib

/-- The two endpoints. -/
inductive Side where
  | left | right
  deriving DecidableEq, Repr

/-- The other endpoint. -/
def Side.peer : Side → Side
  | left => right
  | right => left

/-- The other of the other is the first. -/
@[simp] theorem Side.peer_peer (s : Side) : s.peer.peer = s := by
  cases s <;> rfl

/-- No endpoint is its own peer. -/
@[simp] theorem Side.peer_ne (s : Side) : s.peer ≠ s := by
  cases s <;> decide

/-- A ciphertext on its way, with the argument of the `Encrypt` that made it. -/
structure Message where
  plaintext : Bytes
  ciphertext : Bytes
  deriving DecidableEq, Repr

/-- `inbox s` holds the messages on their way to `s`, oldest first; `received` what
each `Decrypt` was to return and what it did. -/
structure Duplex where
  crypto : Side → SessionCrypto
  inbox : Side → List Message
  received : List (Bytes × Except SessionCryptoError Bytes)

/-- An `Encrypt` whose ciphertext is sent, or a `Decrypt` of the next message. -/
inductive DuplexAction where
  | send (side : Side) (plaintext : Bytes)
  | receive (side : Side)
  deriving DecidableEq, Repr

namespace Duplex

/-- Both endpoints with the same key and vector, and nothing on its way. -/
def start (crypto : SessionCrypto) : Duplex where
  crypto _ := crypto
  inbox _ := []
  received := []

/-- One action. A message that cannot be decrypted is gone. -/
def step (cipher : Cipher) (d : Duplex) : DuplexAction → Duplex
  | .send s plaintext =>
    match (d.crypto s).encrypt cipher none plaintext with
    | .ok ciphertext crypto =>
      { d with
        crypto := Function.update d.crypto s crypto
        inbox := Function.update d.inbox s.peer (d.inbox s.peer ++ [⟨plaintext, ciphertext⟩]) }
    | .error _ crypto => { d with crypto := Function.update d.crypto s crypto }
  | .receive s =>
    match d.inbox s with
    | [] => d
    | message :: rest =>
      match (d.crypto s).decrypt cipher none message.ciphertext with
      | .ok plaintext crypto =>
        { crypto := Function.update d.crypto s crypto
          inbox := Function.update d.inbox s rest
          received := d.received ++ [(message.plaintext, .ok plaintext)] }
      | .error e crypto =>
        { crypto := Function.update d.crypto s crypto
          inbox := Function.update d.inbox s rest
          received := d.received ++ [(message.plaintext, .error e)] }

/-- One action after another. -/
def run (cipher : Cipher) (d : Duplex) (actions : List DuplexAction) : Duplex :=
  actions.foldl (step cipher) d

/-- Nobody sends while a message to it is undelivered. -/
def InTurn (d : Duplex) : DuplexAction → Prop
  | .send s _ => d.inbox s = []
  | .receive _ => True

/-- A run all of whose sends are in turn. -/
def TakesTurns (cipher : Cipher) : Duplex → List DuplexAction → Prop
  | _, [] => True
  | d, action :: actions => InTurn d action ∧ TakesTurns cipher (step cipher d action) actions

/-- Every `Decrypt` so far returned what the matching `Encrypt` was given. -/
def Faithful (d : Duplex) : Prop := ∀ r ∈ d.received, r.2 = .ok r.1

end Duplex

open Duplex

-- ---------------------------------------------------------------------------
-- The chain of vectors
-- ---------------------------------------------------------------------------

/-- `messages` take a session from the state `a` to the state `b`. -/
def Chained (cipher : Cipher) : SessionCrypto → List Message → SessionCrypto → Prop
  | a, [], b => a = b
  | a, message :: rest, b =>
    message.ciphertext = cipher.encrypt a.key a.iv message.plaintext ∧
      Chained cipher (a.updateIv message.ciphertext) rest b

/-- One message more at the end of a chain. -/
theorem Chained.snoc {cipher : Cipher} (plaintext : Bytes) :
    ∀ {a b : SessionCrypto} {messages : List Message}, Chained cipher a messages b →
      Chained cipher a
        (messages ++ [⟨plaintext, cipher.encrypt b.key b.iv plaintext⟩])
        (b.updateIv (cipher.encrypt b.key b.iv plaintext))
  | _, _, [], rfl => ⟨rfl, rfl⟩
  | _, _, _ :: _, ⟨hHead, hTail⟩ => ⟨hHead, hTail.snoc plaintext⟩

/-- One direction is empty, and the messages of the other lead from their
receiver's state to their sender's. -/
def Lockstep (cipher : Cipher) (d : Duplex) : Prop :=
  ∃ s, d.inbox s.peer = [] ∧ Chained cipher (d.crypto s) (d.inbox s) (d.crypto s.peer)

/-- The endpoint that is free to send may be taken for the sender. -/
theorem Lockstep.sender {cipher : Cipher} {d : Duplex} (h : Lockstep cipher d) {s : Side}
    (hEmpty : d.inbox s = []) :
    Chained cipher (d.crypto s.peer) (d.inbox s.peer) (d.crypto s) := by
  obtain ⟨r, hPeer, hChain⟩ := h
  by_cases hSame : r = s
  · -- nothing is in flight: both endpoints are in one state
    rw [hSame] at hPeer hChain
    rw [hEmpty] at hChain
    rw [hPeer]
    exact hChain.symm
  · have hOther : r = s.peer := by
      cases r <;> cases s <;> first | rfl | exact absurd rfl hSame
    rw [hOther, Side.peer_peer] at hChain
    exact hChain

section Step

variable {cipher : Cipher} {d : Duplex}

/-- A send in turn: the vector of the other endpoint is reached through one message more. -/
theorem Lockstep.send (h : Lockstep cipher d) {s : Side} (plaintext : Bytes)
    (hEmpty : d.inbox s = []) :
    Lockstep cipher (step cipher d (.send s plaintext)) := by
  have hChain := (h.sender hEmpty).snoc plaintext
  refine ⟨s.peer, ?_, ?_⟩
  · rw [Side.peer_peer]
    show Function.update d.inbox s.peer _ s = []
    rw [Function.update_of_ne (Side.peer_ne s).symm]
    exact hEmpty
  · show Chained cipher (Function.update d.crypto s _ s.peer)
      (Function.update d.inbox s.peer _ s.peer) (Function.update d.crypto s _ s.peer.peer)
    rw [Side.peer_peer, Function.update_of_ne (Side.peer_ne s), Function.update_self,
      Function.update_self]
    exact hChain

/-- A receive: the next message is decrypted under the vector that encrypted it. -/
theorem Lockstep.receive (hCipher : cipher.Lawful) (h : Lockstep cipher d)
    (hFaithful : d.Faithful) (s : Side) :
    Lockstep cipher (step cipher d (.receive s)) ∧
      (step cipher d (.receive s)).Faithful := by
  rcases hInbox : d.inbox s with - | ⟨message, rest⟩
  · have hIdle : step cipher d (.receive s) = d := by
      simp only [step, hInbox]
    rw [hIdle]
    exact ⟨h, hFaithful⟩
  · -- the direction towards `s` is the one that holds messages
    obtain ⟨r, hPeer, hChain⟩ := h
    obtain rfl : r = s := by
      by_contra hSame
      have hOther : r.peer = s := by
        cases r <;> cases s <;> first | rfl | exact absurd rfl hSame
      rw [hOther, hInbox] at hPeer
      cases hPeer
    rw [hInbox] at hChain
    obtain ⟨hHead, hTail⟩ := hChain
    have hDecrypt := hCipher.decrypt_eq (d.crypto r) message.plaintext
    rw [← hHead] at hDecrypt
    have hStep : step cipher d (.receive r) =
        { crypto := Function.update d.crypto r ((d.crypto r).updateIv message.ciphertext)
          inbox := Function.update d.inbox r rest
          received := d.received ++ [(message.plaintext, .ok message.plaintext)] } := by
      simp only [step, hInbox, hDecrypt]
    rw [hStep]
    refine ⟨⟨r, ?_, ?_⟩, ?_⟩
    · show Function.update d.inbox r rest r.peer = []
      rw [Function.update_of_ne (Side.peer_ne r)]
      exact hPeer
    · show Chained cipher (Function.update d.crypto r _ r) (Function.update d.inbox r rest r)
        (Function.update d.crypto r _ r.peer)
      rw [Function.update_self, Function.update_self, Function.update_of_ne (Side.peer_ne r)]
      exact hTail
    · intro result hMem
      rcases List.mem_append.mp hMem with hOld | hNew
      · exact hFaithful result hOld
      · rw [List.mem_singleton.mp hNew]

/-- An action in turn keeps the endpoints together. -/
theorem Lockstep.step (hCipher : cipher.Lawful) (h : Lockstep cipher d)
    (hFaithful : d.Faithful) {action : DuplexAction} (hTurn : InTurn d action) :
    Lockstep cipher (step cipher d action) ∧ (step cipher d action).Faithful := by
  cases action with
  | send s plaintext => exact ⟨h.send plaintext hTurn, hFaithful⟩
  | receive s => exact h.receive hCipher hFaithful s

/-- So does a run of such actions. -/
theorem Lockstep.run (hCipher : cipher.Lawful) : ∀ (actions : List DuplexAction) (d : Duplex),
    Lockstep cipher d → d.Faithful → TakesTurns cipher d actions →
    Lockstep cipher (run cipher d actions) ∧ (run cipher d actions).Faithful
  | [], _, h, hFaithful, _ => ⟨h, hFaithful⟩
  | _ :: actions, _, h, hFaithful, ⟨hTurn, hRest⟩ => by
    obtain ⟨hNext, hNextFaithful⟩ := h.step hCipher hFaithful hTurn
    exact Lockstep.run hCipher actions _ hNext hNextFaithful hRest

end Step

/-- Endpoints that take turns read back everything that is sent. -/
theorem faithful_of_takesTurns {cipher : Cipher} (hCipher : cipher.Lawful)
    {crypto : SessionCrypto} {actions : List DuplexAction}
    (hTurns : TakesTurns cipher (start crypto) actions) :
    (run cipher (start crypto) actions).Faithful := by
  have hStart : Lockstep cipher (start crypto) := ⟨.left, rfl, rfl⟩
  have hEmpty : (start crypto).Faithful := fun _ hMem => absurd hMem List.not_mem_nil
  exact (Lockstep.run hCipher actions _ hStart hEmpty hTurns).2

-- ---------------------------------------------------------------------------
-- A concrete cipher
-- ---------------------------------------------------------------------------

/-- CBC over the block permutation that xors `k` to every byte, so that the chain
can be followed byte by byte: `window` is the ciphertext block before. -/
def chainEncrypt (k : UInt8) : Bytes → Bytes → Bytes
  | _, [] => []
  | window, b :: bytes =>
    let c := b ^^^ (window.headD 0 ^^^ k)
    c :: chainEncrypt k (window.tail ++ [c]) bytes

/-- The inverse, along the same windows. -/
def chainDecrypt (k : UInt8) : Bytes → Bytes → Bytes
  | _, [] => []
  | window, c :: bytes =>
    (c ^^^ (window.headD 0 ^^^ k)) :: chainDecrypt k (window.tail ++ [c]) bytes

/-- How many padding bytes there are, at least one. -/
def padLength (plaintext : Bytes) : Nat :=
  AES_BLOCK_BYTES - plaintext.length % AES_BLOCK_BYTES

/-- PKCS#7: the padding bytes hold their number. -/
def pad (plaintext : Bytes) : Bytes :=
  plaintext ++ List.replicate (padLength plaintext) (UInt8.ofNat (padLength plaintext))

/-- The plaintext, when the padding is what `pad` makes. -/
def unpad (padded : Bytes) : Option Bytes :=
  let n := (padded.getLastD 0).toNat
  let body := padded.take (padded.length - n)
  if padded = pad body then some body else none

/-- CBC and PKCS#7 with a block permutation that is easy to compute. -/
def xorCipher : Cipher where
  encrypt key iv plaintext := chainEncrypt (key.headD 0) iv (pad plaintext)
  decrypt key iv ciphertext := unpad (chainDecrypt (key.headD 0) iv ciphertext)

/-- Decrypting undoes encrypting. -/
theorem chainDecrypt_chainEncrypt (k : UInt8) : ∀ (bytes window : Bytes),
    chainDecrypt k window (chainEncrypt k window bytes) = bytes
  | [], _ => rfl
  | b :: bytes, window => by
    rw [chainEncrypt, chainDecrypt, chainDecrypt_chainEncrypt k bytes, UInt8.xor_assoc,
      UInt8.xor_self, UInt8.xor_zero]

/-- A byte for each byte. -/
theorem length_chainEncrypt (k : UInt8) : ∀ (bytes window : Bytes),
    (chainEncrypt k window bytes).length = bytes.length
  | [], _ => rfl
  | _ :: bytes, _ => congrArg (· + 1) (length_chainEncrypt k bytes _)

/-- The padding fills the last block. -/
theorem padLength_bounds (plaintext : Bytes) :
    1 ≤ padLength plaintext ∧ padLength plaintext ≤ 16 ∧
      (plaintext.length + padLength plaintext) % 16 = 0 := by
  rw [padLength, AES_BLOCK_BYTES]
  omega

/-- The length with the padding. -/
theorem length_pad (plaintext : Bytes) :
    (pad plaintext).length = plaintext.length + padLength plaintext := by
  rw [pad, List.length_append, List.length_replicate]

/-- Padding is taken off again. -/
theorem unpad_pad (plaintext : Bytes) : unpad (pad plaintext) = some plaintext := by
  obtain ⟨hPos, hLe, -⟩ := padLength_bounds plaintext
  have hLast : (pad plaintext).getLastD 0 = UInt8.ofNat (padLength plaintext) := by
    obtain ⟨n, hn⟩ : ∃ n, padLength plaintext = n + 1 := ⟨padLength plaintext - 1, by omega⟩
    rw [pad, hn, List.replicate_succ', ← List.append_assoc, List.getLastD_concat]
  have hCount : (UInt8.ofNat (padLength plaintext)).toNat = padLength plaintext := by
    rw [UInt8.toNat_ofNat']
    omega
  have hBody : (pad plaintext).take ((pad plaintext).length - padLength plaintext) =
      plaintext := by
    rw [length_pad, Nat.add_sub_cancel, pad, List.take_left]
  simp only [unpad, hLast, hCount, hBody, if_true]

/-- The witness cipher is one that a session can rely on. -/
theorem xorCipher_lawful : xorCipher.Lawful where
  decrypt_encrypt plaintext _ _ := by
    show unpad (chainDecrypt _ _ (chainEncrypt _ _ _)) = _
    rw [chainDecrypt_chainEncrypt, unpad_pad]
  encrypt_ne_nil plaintext _ _ := by
    obtain ⟨hPos, -, -⟩ := padLength_bounds plaintext
    refine List.ne_nil_of_length_pos ?_
    show 0 < (chainEncrypt _ _ _).length
    rw [length_chainEncrypt, length_pad]
    omega
  encrypt_aligned plaintext _ _ := by
    show (chainEncrypt _ _ _).length % 16 = 0
    rw [length_chainEncrypt, length_pad]
    exact (padLength_bounds plaintext).2.2

/-- The key and the vector of `EstablishSession`. -/
def sessionStart : SessionCrypto where
  key := List.replicate AES_KEY_BYTES 0x55
  iv := List.replicate AES_IV_BYTES 0x66
  key_length := List.length_replicate
  iv_length := List.length_replicate

/-- Two requests in a row, then their answers. -/
def turnActions : List DuplexAction :=
  [.send .left [1], .send .left [2, 3], .receive .right, .receive .right,
    .send .right [4], .receive .left]

/-- Two requests and two answers arrive as they were sent. -/
theorem faithful_of_takesTurns_turnActions :
    (run xorCipher (start sessionStart) turnActions).received.length = 3 ∧
      (run xorCipher (start sessionStart) turnActions).Faithful := by
  refine ⟨by decide, faithful_of_takesTurns xorCipher_lawful ?_⟩
  simp only [turnActions, TakesTurns, InTurn]
  decide

/-- Two messages that cross: the left endpoint has moved its vector with its own
message when the one from the right arrives. -/
theorem not_faithful_crossing :
    xorCipher.Lawful ∧
      ¬(run xorCipher (start sessionStart)
        [.send .left [1], .send .right [2], .receive .left]).Faithful := by
  refine ⟨xorCipher_lawful, fun h => ?_⟩
  have hFirst : (run xorCipher (start sessionStart)
      [.send .left [1], .send .right [2], .receive .left]).received =
        [([2], .error ⟨"padding validation failed"⟩)] := by decide
  have hBack := h ([2], .error ⟨"padding validation failed"⟩) (by
    rw [hFirst]
    exact List.mem_singleton_self _)
  cases hBack

end Ithax.Network
