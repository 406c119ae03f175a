import StacksWallet.Datum.Coercion
import StacksWallet.Address.Basic
import StacksWallet.Signing.Scheme

/-!
# Signers

A signer holds one private key and its public key. Private keys come as 32 bytes, or as 33 bytes of which
the last one says that the public key is compressed. Digests are signed as they are.
-/

namespace StacksWallet

/-- The 32 bytes of a private key as callers give it. -/
def normalizeKey (key : Datum) : Except Fault Bytes :=
  match key.toBytes with
  | .error flaw => .error (.signing (.keySource flaw))
  | .ok b =>
    let secret := if b.length = 33 && b.getLast? == some 1 then b.take 32 else b
    if secret.length = 32 then .ok secret else .error (.signing (.keySize secret.length))

/-- The bytes of a digest, which must be 32. -/
def requireDigest (digest : Datum) : Except Fault Bytes := do
  let b ← digest.requireBytes
  if b.length = digestWidth then return b else throw (.signing (.digestSize b.length))

/-- The bytes of a signature, which must be 65. -/
def requireSignature (signature : Datum) : Except Fault Bytes :=
  match signature.toBytes with
  | .error flaw => .error (.signing (.signatureSource flaw))
  | .ok b => if b.length = signatureWidth then .ok b else .error (.signing (.signatureSize b.length))

/-- A private key with its public key. -/
structure Signer where
  /-- The private key. -/
  secret : Bytes
  /-- The compressed public key. -/
  publicKey : Bytes
deriving DecidableEq

namespace Signer

/-- The signer of a private key as callers give it. -/
def ofKey (scheme : SignatureScheme) (key : Datum) : Except Fault Signer := do
  let secret ← normalizeKey key
  if scheme.isSecret secret then return ⟨secret, scheme.publicKey secret⟩ else throw (.signing .keyRange)

/-- The signature of a digest. -/
def sign (scheme : SignatureScheme) (signer : Signer) (digest : Datum) : Except Fault Bytes :=
  return scheme.sign signer.secret (← requireDigest digest)

/-- The address of the signer's public key under a version. -/
def address (signer : Signer) (version : Int) : Except Fault Address := Address.ofPublicKey signer.publicKey version

/-- The signer as a message shows it. -/
def shown (signer : Signer) : Text := "Secp256k1Signer(public_key=" ++ Hex.prefixed signer.publicKey ++ ")"

end Signer

/-- The compressed public key whose holder signed a digest. -/
def recoverPublicKey (scheme : SignatureScheme) (digest signature : Datum) : Except Fault Bytes := do
  let digest ← requireDigest digest
  let signature ← requireSignature signature
  (scheme.recover digest signature).mapError fun flaw => .signing (.recovery flaw)

/-- The compressed form of a public key as callers give it. -/
def compressKey (scheme : SignatureScheme) (publicKey : Datum) : Except Fault Bytes := do
  match scheme.compress? (← publicKey.requireBytes) with
  | some b => return b
  | none => throw (.argument .publicKey)

/-- Whether a signature of a digest is by the holder of a public key. A signature from which no key can be
recovered is by nobody; other faults are the caller's. -/
def verifySignature (scheme : SignatureScheme) (digest signature publicKey : Datum) : Except Fault Bool :=
  match recoverPublicKey scheme digest signature with
  | .ok recovered => (compressKey scheme publicKey).map (recovered == ·)
  | .error (.signing _) => .ok false
  | .error fault => .error fault

end StacksWallet
