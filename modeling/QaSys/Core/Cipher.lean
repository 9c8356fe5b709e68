import QaSys.Core.Aes
import QaSys.Data.Ascii

/-! How long the texts are that `core/src/aes.rs` encrypts to, and of which characters. -/

namespace QaSys

def base64Alphabet : List Char :=
  "ABCDEFGHIJKLMNOPQRSTUVWXYZabcdefghijklmnopqrstuvwxyz0123456789+/=".toList

/-- PKCS#7 fills the last block or adds a block, and Base64 writes four characters for every three
bytes it begins. -/
structure Ciphers.Standard (c : Ciphers) : Prop extends c.Lawful where
  size_encrypt {size : AesKeySize} {key iv data enc : ByteArray} :
    c.encryptPadded size key iv data = .ok enc → enc.size = 16 * (data.size / 16 + 1)
  length_encode {size : AesKeySize} {key iv data enc : ByteArray} :
    c.encryptPadded size key iv data = .ok enc → (c.encode enc).length = 4 * ((enc.size + 2) / 3)
  mem_encode {size : AesKeySize} {key iv data enc : ByteArray} :
    c.encryptPadded size key iv data = .ok enc → ∀ ch ∈ (c.encode enc).toList, ch ∈ base64Alphabet

variable {c : Ciphers} {crypto : AesCBCCrypto} {data token : String}

namespace Ciphers.Standard

theorem length_token (hc : c.Standard) (h : crypto.encrypt c data = .ok token) :
    token.length = 4 * ((16 * (data.utf8ByteSize / 16 + 1) + 2) / 3) := by
  unfold AesCBCCrypto.encrypt at h
  split at h
  next => cases h
  next enc henc =>
    cases h
    rw [hc.length_encode henc, hc.size_encrypt henc]
    rfl

theorem mem_token (hc : c.Standard) (h : crypto.encrypt c data = .ok token) :
    ∀ ch ∈ token.toList, ch ∈ base64Alphabet := by
  unfold AesCBCCrypto.encrypt at h
  split at h
  next => cases h
  next enc henc =>
    cases h
    exact hc.mem_encode henc

end Ciphers.Standard

end QaSys
