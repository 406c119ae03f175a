import StacksWallet.Digest.Ripemd160
import StacksWallet.Digest.Sha256

/-!
# Hashes of hashes

A public key is identified by the RIPEMD-160 hash of its SHA-256 hash, and an address is guarded by the
first four bytes of a double SHA-256.
-/

namespace StacksWallet

/-- SHA-256 of SHA-256. -/
def doubleSha256 (b : Bytes) : Bytes := Sha256.digest (Sha256.digest b)

/-- A hash of twenty bytes, such as identifies keys and accounts. -/
abbrev Hash160 := { b : Bytes // b.length = 20 }

namespace Hash160

/-- Bytes as a hash, if there are twenty. -/
def ofBytes? (b : Bytes) : Option Hash160 := if h : b.length = 20 then some ⟨b, h⟩ else none

/-- A hash is made from its own bytes. -/
theorem ofBytes?_eq_some_iff {b : Bytes} {hash : Hash160} : ofBytes? b = some hash ↔ b = hash.val := by
  unfold ofBytes?
  split
  · rw [Option.some.injEq, Subtype.ext_iff]
  · rename_i hb
    exact ⟨nofun, fun h => absurd (h ▸ hash.property) hb⟩

/-- The hash of zeros, which identifies nobody. -/
def zero : Hash160 := ⟨Bytes.zeros 20, by simp [Bytes.zeros]⟩

end Hash160

/-- The hash that identifies a public key. -/
def keyHash (b : Bytes) : Hash160 := ⟨Ripemd160.digest (Sha256.digest b), Ripemd160.digest_length _⟩

/-- The four bytes that guard an address. -/
def checksum (b : Bytes) : Bytes := (doubleSha256 b).take 4

/-- Four bytes guard an address. -/
@[simp] theorem checksum_length (b : Bytes) : (checksum b).length = 4 := by
  simp [checksum, doubleSha256]

end StacksWallet
