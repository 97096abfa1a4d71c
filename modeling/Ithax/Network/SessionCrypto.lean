import Ithax.Lib.LittleEndian

/-!
# Session crypto

`network/session_crypto.cpp`. AES-256-CBC itself comes from OpenSSL and is a
parameter, `Cipher`; what the session does with it is here: one key, and one
initialisation vector that every `Encrypt` and every `Decrypt` moves to the last
block of the ciphertext.
-/

namespace Ithax.Network

open Ithax.Lib

/-- The length of a key. -/
def AES_KEY_BYTES : Nat := 32
/-- The length of a vector. -/
def AES_IV_BYTES : Nat := 16
/-- The length of a block. -/
def AES_BLOCK_BYTES : Nat := 16

/-- A block cipher in CBC mode with PKCS#7 padding; decryption fails when the
padding is wrong. -/
structure Cipher where
  encrypt : (key iv plaintext : Bytes) → Bytes
  decrypt : (key iv ciphertext : Bytes) → Option Bytes

/-- Encryption that leaves everything as it is. -/
def plainCipher : Cipher := ⟨fun _ _ plaintext => plaintext, fun _ _ ciphertext => some ciphertext⟩

/-- What a session relies on. -/
structure Cipher.Lawful (cipher : Cipher) : Prop where
  decrypt_encrypt : ∀ {key iv : Bytes} (plaintext : Bytes),
    key.length = AES_KEY_BYTES → iv.length = AES_IV_BYTES →
    cipher.decrypt key iv (cipher.encrypt key iv plaintext) = some plaintext
  encrypt_ne_nil : ∀ {key iv : Bytes} (plaintext : Bytes),
    key.length = AES_KEY_BYTES → iv.length = AES_IV_BYTES →
    cipher.encrypt key iv plaintext ≠ []
  encrypt_aligned : ∀ {key iv : Bytes} (plaintext : Bytes),
    key.length = AES_KEY_BYTES → iv.length = AES_IV_BYTES →
    (cipher.encrypt key iv plaintext).length % AES_BLOCK_BYTES = 0

/-- The one exception class of the session crypto. -/
structure SessionCryptoError where
  message : String
  deriving DecidableEq, Repr

/-- The OpenSSL call that fails. -/
inductive EvpFault where
  | newContext | init | setPadding | update | final
  deriving DecidableEq, Repr

/-- What `Encrypt` throws. -/
def EvpFault.encryptError : EvpFault → SessionCryptoError
  | newContext => ⟨"failed to allocate the cipher context"⟩
  | init => ⟨"failed to initialize the cipher"⟩
  | setPadding => ⟨"failed to configure PKCS#7 padding"⟩
  | update => ⟨"failed to encrypt the payload"⟩
  | final => ⟨"failed to finalize the cipher"⟩

/-- What `Decrypt` throws. -/
def EvpFault.decryptError : EvpFault → SessionCryptoError
  | newContext => ⟨"failed to allocate the cipher context"⟩
  | init => ⟨"failed to initialize the decipher"⟩
  | setPadding => ⟨"failed to configure PKCS#7 padding"⟩
  | update => ⟨"failed to decrypt the payload"⟩
  | final => ⟨"padding validation failed"⟩

/-- `SessionCrypto`. The constructor checks both lengths. -/
structure SessionCrypto where
  key : Bytes
  iv : Bytes
  key_length : key.length = AES_KEY_BYTES
  iv_length : iv.length = AES_IV_BYTES
  deriving DecidableEq, Repr

/-- A method of the session crypto. -/
abbrev CryptoM := EStateM SessionCryptoError SessionCrypto

namespace SessionCrypto

/-- `UpdateIv`: the last block of the ciphertext, where there is one. -/
def updateIv (crypto : SessionCrypto) (ciphertext : Bytes) : SessionCrypto :=
  if h : ciphertext.length < AES_IV_BYTES then crypto
  else
    { crypto with
      iv := ciphertext.drop (ciphertext.length - AES_IV_BYTES)
      iv_length := by
        rw [List.length_drop]
        omega }

/-- `Encrypt`, when OpenSSL reports `fault`. -/
def encrypt (cipher : Cipher) (fault : Option EvpFault) (plaintext : Bytes) :
    CryptoM Bytes := fun crypto =>
  match fault with
  | some fault => .error fault.encryptError crypto
  | none =>
    let output := cipher.encrypt crypto.key crypto.iv plaintext
    .ok output (crypto.updateIv output)

/-- `Decrypt`, when OpenSSL reports `fault`. -/
def decrypt (cipher : Cipher) (fault : Option EvpFault) (ciphertext : Bytes) :
    CryptoM Bytes := fun crypto =>
  if ciphertext = [] ∨ ciphertext.length % AES_BLOCK_BYTES ≠ 0 then
    .error ⟨"ciphertext length is not block aligned"⟩ crypto
  else
    match fault with
    | some fault => .error fault.decryptError crypto
    | none =>
      match cipher.decrypt crypto.key crypto.iv ciphertext with
      | none => .error EvpFault.final.decryptError crypto
      | some output => .ok output (crypto.updateIv ciphertext)

/-- `CurrentIv`. -/
def currentIv (crypto : SessionCrypto) : Bytes := crypto.iv

/-- The key never changes. -/
@[simp] theorem updateIv_key (crypto : SessionCrypto) (ciphertext : Bytes) :
    (crypto.updateIv ciphertext).key = crypto.key := by
  unfold updateIv
  split <;> rfl

end SessionCrypto

section Lawful

variable {cipher : Cipher} (hCipher : cipher.Lawful) (crypto : SessionCrypto)
  (plaintext : Bytes)

include hCipher

/-- A session in the sender's state reads back what the sender encrypted. -/
theorem Cipher.Lawful.decrypt_eq :
    crypto.decrypt cipher none (cipher.encrypt crypto.key crypto.iv plaintext) =
      .ok plaintext (crypto.updateIv (cipher.encrypt crypto.key crypto.iv plaintext)) := by
  have hNil := hCipher.encrypt_ne_nil plaintext crypto.key_length crypto.iv_length
  have hAligned := hCipher.encrypt_aligned plaintext crypto.key_length crypto.iv_length
  have hBack := hCipher.decrypt_encrypt plaintext crypto.key_length crypto.iv_length
  rw [SessionCrypto.decrypt, if_neg (by simp [hNil, hAligned])]
  simp only [hBack]

end Lawful

end Ithax.Network
