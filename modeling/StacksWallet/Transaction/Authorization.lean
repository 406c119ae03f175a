import StacksWallet.Digest.Sha512
import StacksWallet.Signing.Signer
import StacksWallet.Transaction.Mode
import StacksWallet.Transaction.SpendingCondition

/-!
# Authorizations and the chain of digests

A transaction is authorized by its origin and, if it is sponsored, by a sponsor. Each signature covers a
digest that is made from the running digest, the kind of authorization, the fee and the nonce; together with
the signature it yields the running digest for the next signer. The origin always signs as if it paid for
itself.
-/

namespace StacksWallet

/-- Who authorizes a transaction. -/
structure Authorization where
  /-- Who sends it. -/
  origin : SpendingCondition
  /-- Who pays for it, if that is not the origin. -/
  sponsor? : Option SpendingCondition
deriving DecidableEq

namespace Authorization

/-- The authorization by an origin that pays for itself. -/
def standard (origin : SpendingCondition) : Authorization := ⟨origin, none⟩

/-- The authorization by an origin and a sponsor, who may not be known yet. -/
def sponsored (origin : SpendingCondition) (sponsor? : Option SpendingCondition) : Authorization :=
  ⟨origin, some (sponsor?.getD SpendingCondition.sentinel)⟩

/-- Whether somebody else pays. -/
def isSponsored (a : Authorization) : Bool := a.sponsor?.isSome

/-- The kind of authorization. -/
def kind (a : Authorization) : AuthKind := if a.isSponsored then .sponsored else .standard

/-- The authorization without everything that is signed or set later. -/
def initial (a : Authorization) : Except Fault Authorization :=
  return ⟨← a.origin.cleared, a.sponsor?.map fun _ => SpendingCondition.sentinel⟩

/-- The bytes on the wire. -/
def encode (a : Authorization) : Except Fault Bytes := do
  let origin ← a.origin.encode
  let sponsor ←
    match a.sponsor? with
    | some c => c.encode
    | none => pure []
  return UInt8.ofNat a.kind.code :: origin ++ sponsor

/-- Read an authorization. -/
def read : Reader Authorization := do
  let start ← Reader.position
  let tag ← Reader.u8
  if tag = AuthKind.standard.code then return standard (← SpendingCondition.read)
  else if tag = AuthKind.sponsored.code then
    let origin ← SpendingCondition.read
    return ⟨origin, some (← SpendingCondition.read)⟩
  else Reader.malformed start (.unknownTag .authorization tag)

end Authorization

/-- The digest that a signer signs. -/
def presignDigest (running : Bytes) (kind fee nonce : Datum) : Except Fault Bytes := do
  let kind ← Wire.u8 kind
  let fee ← Wire.u64 fee
  let nonce ← Wire.u64 nonce
  return Sha512.digest (running ++ kind ++ fee ++ nonce)

/-- The running digest after a signature. -/
def postsignDigest (presign : Bytes) (encoding : Datum) (signature : Bytes) : Except Fault Bytes := do
  let encoding ← Wire.u8 encoding
  return Sha512.digest (presign ++ encoding ++ signature)

namespace SpendingCondition

/-- The digest that the holder of the condition signs. -/
def presign (c : SpendingCondition) (kind : AuthKind) (running : Bytes) : Except Fault Bytes :=
  presignDigest running (.integer kind.code) (.integer c.fee) (.integer c.nonce)

/-- The running digest after a signature of the condition's holder. -/
def postsign (c : SpendingCondition) (presign signature : Bytes) : Except Fault Bytes :=
  postsignDigest presign (.integer c.encoding.code) signature

/-- The signature of a signer, and the running digest after it. -/
def nextSignature (scheme : SignatureScheme) (c : SpendingCondition) (kind : AuthKind) (running : Bytes)
    (signer : Signer) : Except Fault (Bytes × Bytes) := do
  let presign ← c.presign kind running
  let signature ← signer.sign scheme (.bytes presign)
  return (signature, ← c.postsign presign signature)

/-- Check that the condition's signature is by its signer; the running digest after it. -/
def nextVerification (scheme : SignatureScheme) (c : SpendingCondition) (kind : AuthKind) (running : Bytes) :
    Except Fault Bytes := do
  if !c.isSigned then throw (.signing .missing)
  let presign ← c.presign kind running
  let publicKey ← recoverPublicKey scheme (.bytes presign) (.bytes c.signature)
  let got ← signerHash (.bytes publicKey) (.integer c.mode.code)
  if got = c.signer then c.postsign presign c.signature
  else throw (.signing (.otherSigner c.signer got))

end SpendingCondition

end StacksWallet
