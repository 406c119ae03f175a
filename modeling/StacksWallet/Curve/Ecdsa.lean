import StacksWallet.Curve.Secp256k1
import StacksWallet.Digest.Hmac

/-!
# Recoverable signatures

A signature is `(r, s)` with a recovery number that says which of the points with abscissa `r` the nonce
gave, so that the public key can be recovered from signature and digest. The nonce is derived from the
secret and the digest, and `s` is always in the lower half of its range, so that signing is a function. All this is
assumed of the library of curve arithmetic; `CurveLibrary` says what is called of it.
-/

namespace StacksWallet.Ecdsa

open Secp256k1

/-- A signature with its recovery number. -/
structure Signature where
  /-- Bit zero: the nonce point has an odd ordinate. Bit one: its abscissa exceeds the group order. -/
  recovery : Nat
  /-- The abscissa of the nonce point, modulo the group order. -/
  r : Nat
  /-- The proof of the secret. -/
  s : Nat
deriving DecidableEq

/-- Why no public key can be recovered. -/
inductive RecoveryFlaw where
  /-- The recovery number is not below four. -/
  | recoveryNumber
  /-- One of the scalars is not below the group order. -/
  | unparsable
  /-- No key yields the signature. -/
  | unrecoverable
deriving DecidableEq

/-- A secret scalar is neither zero nor beyond the group order. -/
def isSecret (secret : Nat) : Bool := 0 < secret && secret < order

/-- The signature that a nonce yields, unless one of its parts vanishes. -/
def signWith? (secret message nonce : Nat) : Option Signature :=
  match (generator.times nonce).toPoint? with
  | none => none
  | some p =>
    let r := p.x % order
    let s := inverseMod order nonce * ((message + r * secret) % order) % order
    if r = 0 || s = 0 then none
    else
      let high := order < 2 * s
      let odd := (p.y % 2 == 1) != high
      some ⟨(if order ≤ p.x then 2 else 0) + (if odd then 1 else 0), r, if high then order - s else s⟩

/-- The first signature that one of `attempts` nonces yields. -/
def signFrom (secret message : Nat) : Nat → NonceGenerator → Option Signature
  | 0, _ => none
  | attempts + 1, g =>
    let (candidate, g') := g.next
    let nonce := candidate.toNat
    match if isSecret nonce then signWith? secret message nonce else none with
    | some signature => some signature
    | none => signFrom secret message attempts g'

/-- Sign a 32-byte digest, which counts modulo the group order. A nonce fails with a probability of about
`2 ^ -128`, so a few attempts suffice. -/
def sign? (secret digest : Bytes) : Option Signature :=
  let message := digest.toNat % order
  signFrom secret.toNat message 64 (NonceGenerator.seeded (secret ++ bigEndian 32 message))

/-- The public key whose holder signed a digest. -/
def recover (digest : Bytes) (signature : Signature) : Except RecoveryFlaw Point :=
  if 3 < signature.recovery then .error .recoveryNumber
  else if order ≤ signature.r || order ≤ signature.s then .error .unparsable
  else if signature.r = 0 || signature.s = 0 then .error .unrecoverable
  else
    let x := signature.r + (if 2 ≤ signature.recovery then order else 0)
    match Point.lift? x (signature.recovery % 2 == 1) with
    | none => .error .unrecoverable
    | some nonce =>
      let inverse := inverseMod order signature.r
      let u := subMod order 0 (inverse * (digest.toNat % order))
      let v := inverse * signature.s % order
      match ((generator.times u).add (nonce.times v)).toPoint? with
      | none => .error .unrecoverable
      | some p => .ok p

/-- The public key of a secret. -/
def publicKey? (secret : Bytes) : Option Point := (generator.times secret.toNat).toPoint?

end StacksWallet.Ecdsa
