import StacksWallet.Digest.Sha256

/-!
# Keyed hashing and deterministic nonces

HMAC over SHA-256, and the generator that derives a sequence of 32-byte candidates for a signature's nonce
from a seed. The same seed always yields the same sequence.
-/

namespace StacksWallet

/-- HMAC with SHA-256. -/
def hmacSha256 (key message : Bytes) : Bytes :=
  let short := if 64 < key.length then Sha256.digest key else key
  let block := short ++ Bytes.zeros (64 - short.length)
  Sha256.digest (block.map (· ^^^ 0x5C) ++ Sha256.digest (block.map (· ^^^ 0x36) ++ message))

/-- The state of the nonce generator. -/
structure NonceGenerator where
  /-- The key of the next step. -/
  key : Bytes
  /-- The value that the last step produced. -/
  value : Bytes

namespace NonceGenerator

/-- Replace the key by one that depends on the value and on further data, and step the value. -/
def absorb (g : NonceGenerator) (data : Bytes) : NonceGenerator :=
  let key := hmacSha256 g.key (g.value ++ data)
  ⟨key, hmacSha256 key g.value⟩

/-- The generator seeded with a secret and a digest. -/
def seeded (seed : Bytes) : NonceGenerator :=
  ((NonceGenerator.mk (Bytes.zeros 32) (List.replicate 32 1)).absorb (0x00 :: seed)).absorb (0x01 :: seed)

/-- The next candidate, and the generator after it. -/
def next (g : NonceGenerator) : Bytes × NonceGenerator :=
  let value := hmacSha256 g.key g.value
  (value, (NonceGenerator.mk g.key value).absorb [0x00])

end NonceGenerator

end StacksWallet
