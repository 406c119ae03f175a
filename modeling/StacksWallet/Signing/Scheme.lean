import StacksWallet.Curve.Ecdsa

/-!
# Signature schemes

What transactions ask of a signature scheme: which bytes are secrets, the public key of a secret, and
recoverable signatures of 65 bytes over 32-byte digests. Transactions are written over any scheme. A scheme is
made from a library of curve arithmetic, whose signatures have the recovery number behind `r` and `s`, while
transactions have it in front of them; the one that the network uses is `SignatureScheme.secp256k1`.
-/

namespace StacksWallet

/-- The width of a serialized signature. -/
def signatureWidth : Nat := 65

/-- The width of what is signed. -/
def digestWidth : Nat := 32

/-- A recoverable signature scheme over byte strings. -/
structure SignatureScheme where
  /-- Whether 32 bytes are a secret. -/
  isSecret : Bytes → Bool
  /-- The compressed public key of a secret. -/
  publicKey : Bytes → Bytes
  /-- The signature of a digest under a secret. -/
  sign : Bytes → Bytes → Bytes
  /-- The compressed public key whose holder signed a digest. -/
  recover : Bytes → Bytes → Except Ecdsa.RecoveryFlaw Bytes
  /-- The compressed form of a serialized public key, if it is one. -/
  compress? : Bytes → Option Bytes

/-- A signature as a library makes it: `r`, `s`, recovery number. -/
abbrev LibrarySignature := { b : Bytes // b.length = signatureWidth }

/-- A library of curve arithmetic over byte strings. -/
structure CurveLibrary where
  /-- Whether 32 bytes are a secret. -/
  isSecret : Bytes → Bool
  /-- The compressed public key of a secret. -/
  publicKey : Bytes → Bytes
  /-- The signature of a digest under a secret. -/
  sign : Bytes → Bytes → LibrarySignature
  /-- The compressed public key whose holder signed a digest, from a signature with the recovery number last. -/
  recover : Bytes → Bytes → Except Ecdsa.RecoveryFlaw Bytes
  /-- The compressed form of a serialized public key, if it is one. -/
  compress? : Bytes → Option Bytes

/-- A library's signature with the recovery number moved to the front. -/
def recoveryFirst (b : Bytes) : Bytes := b.drop 64 ++ b.take 64

/-- A signature with the recovery number moved to the end, as libraries take it. -/
def recoveryLast (b : Bytes) : Bytes := b.drop 1 ++ b.take 1

/-- The scheme of a library, with the recovery number in front. -/
def CurveLibrary.scheme (library : CurveLibrary) : SignatureScheme where
  isSecret := library.isSecret
  publicKey := library.publicKey
  sign secret digest := recoveryFirst (library.sign secret digest).val
  recover digest signature := library.recover digest (recoveryLast signature)
  compress? := library.compress?

namespace Ecdsa

/-- The bytes of a signature: `r`, `s`, recovery number. -/
def Signature.bytes (signature : Signature) : LibrarySignature :=
  ⟨bigEndian 32 signature.r ++ bigEndian 32 signature.s ++ [UInt8.ofNat signature.recovery], by
    simp [signatureWidth]⟩

/-- Read the bytes of a signature. -/
def Signature.ofBytes (b : Bytes) : Signature :=
  ⟨((b.drop 64).head?.getD 0).toNat, Bytes.toNat (b.take 32), Bytes.toNat ((b.drop 32).take 32)⟩

end Ecdsa

/-- Arithmetic on secp256k1. -/
def CurveLibrary.secp256k1 : CurveLibrary where
  isSecret secret := Ecdsa.isSecret secret.toNat
  publicKey secret := ((Ecdsa.publicKey? secret).map (·.compressed)).getD (Bytes.zeros 33)
  sign secret digest := ((Ecdsa.sign? secret digest).map (·.bytes)).getD ⟨Bytes.zeros signatureWidth, rfl⟩
  recover digest signature := (Ecdsa.recover digest (Ecdsa.Signature.ofBytes signature)).map (·.compressed)
  compress? b := (Secp256k1.Point.ofBytes? b).map (·.compressed)

/-- Recoverable ECDSA on secp256k1. -/
def SignatureScheme.secp256k1 : SignatureScheme := CurveLibrary.secp256k1.scheme

end StacksWallet
