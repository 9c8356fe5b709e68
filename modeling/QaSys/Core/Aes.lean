import Mathlib.Tactic.Common

/-! `core/src/aes.rs`, over the ciphers and the Base64 of the crates it uses. -/

namespace QaSys

inductive AesKeySize
  | size128 | size192 | size256
  deriving DecidableEq

inductive AesError
  | invalidKeyLength (expected actual : Nat)
  | invalidIvLength (expected actual : Nat)
  | encryptError (msg : String)
  | decryptError (msg : String)
  | base64DecodeError (msg : String)
  | utf8Error (msg : String)
  deriving DecidableEq

/-- What `{:?}` prints; a wrapped error is taken as it prints itself. -/
def AesError.debug : AesError → String
  | .invalidKeyLength expected actual =>
    s!"InvalidKeyLength \x7b expected: {expected}, actual: {actual} \x7d"
  | .invalidIvLength expected actual =>
    s!"InvalidIvLength \x7b expected: {expected}, actual: {actual} \x7d"
  | .encryptError msg => s!"EncryptError(\"{msg}\")"
  | .decryptError msg => s!"DecryptError(\"{msg}\")"
  | .base64DecodeError msg => s!"Base64DecodeError({msg})"
  | .utf8Error msg => s!"Utf8Error({msg})"

/-- AES in CBC mode with PKCS#7 padding, for a key, an initial vector and data, and the standard
Base64. -/
structure Ciphers where
  encryptPadded : AesKeySize → ByteArray → ByteArray → ByteArray → Except String ByteArray
  decryptPadded : AesKeySize → ByteArray → ByteArray → ByteArray → Except String ByteArray
  encode : ByteArray → String
  decode : String → Except String ByteArray

/-- Decryption undoes encryption, and decoding undoes encoding. -/
structure Ciphers.Lawful (c : Ciphers) : Prop where
  decrypt_encrypt {size : AesKeySize} {key iv data enc : ByteArray} :
    c.encryptPadded size key iv data = .ok enc → c.decryptPadded size key iv enc = .ok data
  decode_encode (data : ByteArray) : c.decode (c.encode data) = .ok data

structure AesCBCCrypto where
  key : ByteArray
  iv : ByteArray
  keySize : AesKeySize

namespace AesCBCCrypto

def aesBlockSize : Nat := 16

def new (key iv : String) (keySize : AesKeySize) : Except AesError AesCBCCrypto :=
  let expectedKeyLength := match keySize with
    | .size128 => 16
    | .size192 => 24
    | .size256 => 32
  if key.utf8ByteSize ≠ expectedKeyLength then
    .error (.invalidKeyLength expectedKeyLength key.utf8ByteSize)
  else if iv.utf8ByteSize ≠ aesBlockSize then
    .error (.invalidIvLength aesBlockSize iv.utf8ByteSize)
  else .ok ⟨key.toUTF8, iv.toUTF8, keySize⟩

variable (c : Ciphers) (crypto : AesCBCCrypto)

def encrypt (data : String) : Except AesError String :=
  match c.encryptPadded crypto.keySize crypto.key crypto.iv data.toUTF8 with
  | .error e => .error (.encryptError e)
  | .ok encrypted => .ok (c.encode encrypted)

def decrypt (encryptedBase64 : String) : Except AesError String :=
  match c.decode encryptedBase64 with
  | .error e => .error (.base64DecodeError e)
  | .ok encryptedData =>
    match c.decryptPadded crypto.keySize crypto.key crypto.iv encryptedData with
    | .error e => .error (.decryptError e)
    | .ok decrypted =>
      match String.fromUTF8? decrypted with
      | none => .error (.utf8Error "invalid utf-8 sequence")
      | some s => .ok s

variable {c crypto}

theorem decrypt_of_encrypt (hc : c.Lawful) {data token : String}
    (h : crypto.encrypt c data = .ok token) : crypto.decrypt c token = .ok data := by
  unfold encrypt at h
  split at h
  next => cases h
  next encrypted henc =>
    cases h
    have hutf8 : String.fromUTF8? data.toUTF8 = some data := dif_pos data.isValidUTF8
    simp only [decrypt, hc.decode_encode, hc.decrypt_encrypt henc, hutf8]

end AesCBCCrypto

end QaSys
