import StacksWallet.Datum.Coercion
import StacksWallet.Digest.KeyHash
import StacksWallet.Signing.Scheme
import StacksWallet.Wire.Amount

/-!
# Spending conditions

Who may spend from an account, at which nonce and for which fee, and the signature that proves it. The
constructors check every field; the fields themselves hold whatever was put there last, so that a condition
whose fields were overwritten is still a condition, though one that may have no bytes.
-/

namespace StacksWallet

/-- The signature of a condition that is not signed. -/
def emptySignature : Bytes := Bytes.zeros signatureWidth

/-- The condition for spending from an account of a single key. -/
structure SpendingCondition where
  /-- How the signer is derived from the key. -/
  mode : HashMode
  /-- The hash that the key must have. -/
  signer : Bytes
  /-- The number of the account's transaction. -/
  nonce : Int
  /-- What is paid for the transaction. -/
  fee : Int
  /-- How the key is serialized. -/
  encoding : KeyEncoding
  /-- The signature, zero if there is none. -/
  signature : Bytes
deriving DecidableEq

/-- The mode that a caller gives as a number. -/
def HashMode.ofDatum? (d : Datum) : Option HashMode := d.integral?.bind ofCode?

/-- The mode that a caller gives as a number, where nothing else is looked at. -/
def HashMode.ofDatum (d : Datum) : Except Fault HashMode :=
  match ofDatum? d with
  | some mode => .ok mode
  | none => .error (.showing d (.argument (.notACode .hashMode d)))

/-- The encoding that a caller gives as a number. -/
def KeyEncoding.ofDatum? (d : Datum) : Option KeyEncoding := d.integral?.bind ofCode?

/-- The hash of a public key in a mode of a single key. -/
def signerHash? (publicKey : Bytes) : HashMode → Option Bytes
  | .p2pkh => some (keyHash publicKey).val
  | .p2wpkh => some (keyHash ([0x00, 0x14] ++ (keyHash publicKey).val)).val
  | .p2sh | .p2wsh => none

/-- The hash of a public key in a mode, as callers give them. -/
def signerHash (publicKey mode : Datum) : Except Fault Bytes := do
  let publicKey ← publicKey.requireBytes
  let mode ← HashMode.ofDatum mode
  match signerHash? publicKey mode with
  | some hash => return hash
  | none => throw (.invalid (.notSingleKey mode))

namespace SpendingCondition

/-- The condition of the given fields. -/
def make (mode : HashMode) (signer : Bytes) (nonce fee : Datum) (encoding : KeyEncoding) (signature : Bytes) :
    Except Fault SpendingCondition := do
  if !mode.isSingleKey then throw (.invalid (.notSingleKey mode))
  if signer.length ≠ 20 then throw (.invalid .signerSize)
  if signature.length ≠ signatureWidth then throw (.invalid .signatureSize)
  let nonce ← Amount.ofDatum "nonce" nonce
  let fee ← Amount.ofDatum "fee" fee
  return ⟨mode, signer, nonce.val, fee.val, encoding, signature⟩

/-- The bytes of a datum whose size is asked for. -/
def sizedBytes : Datum → Except Fault Bytes
  | .bytes b => .ok b
  | _ => .error .mistyped

/-- The condition of the given fields, with mode and encoding as numbers. -/
def ofData (mode signer nonce fee encoding signature : Datum) : Except Fault SpendingCondition := do
  match HashMode.ofDatum? mode with
  | none => throw (.invalid (.conditionCode .hashMode mode))
  | some mode =>
    match KeyEncoding.ofDatum? encoding with
    | none => throw (.invalid (.conditionCode .keyEncoding encoding))
    | some encoding =>
      if !mode.isSingleKey then throw (.invalid (.notSingleKey mode))
      let signer ← sizedBytes signer
      if signer.length ≠ 20 then throw (.invalid .signerSize)
      make mode signer nonce fee encoding (← sizedBytes signature)

/-- The unsigned condition for the holder of a public key. -/
def ofPublicKey (publicKey nonce fee mode : Datum) : Except Fault SpendingCondition := do
  let signer ← signerHash publicKey mode
  make (← HashMode.ofDatum mode) signer nonce fee .compressed emptySignature

/-- The placeholder for a sponsor who is not yet known. -/
def sentinel : SpendingCondition := ⟨.p2pkh, Bytes.zeros 20, 0, 0, .compressed, emptySignature⟩

/-- Whether there is a signature. -/
def isSigned (c : SpendingCondition) : Bool := c.signature != emptySignature

/-- Whether the condition is a placeholder. -/
def isSentinel (c : SpendingCondition) : Bool := c.signer == Bytes.zeros 20 && !c.isSigned

/-- The condition with nonce, fee and signature set to zero. -/
def cleared (c : SpendingCondition) : Except Fault SpendingCondition :=
  make c.mode c.signer (.integer 0) (.integer 0) c.encoding emptySignature

/-- The condition with another nonce; every field is checked again. -/
def withNonce (c : SpendingCondition) (nonce : Datum) : Except Fault SpendingCondition :=
  make c.mode c.signer nonce (.integer c.fee) c.encoding c.signature

/-- The condition with another fee; every field is checked again. -/
def withFee (c : SpendingCondition) (fee : Datum) : Except Fault SpendingCondition :=
  make c.mode c.signer (.integer c.nonce) fee c.encoding c.signature

/-- The condition with another signature; every field is checked again. -/
def withSignature (c : SpendingCondition) (signature : Bytes) : Except Fault SpendingCondition :=
  make c.mode c.signer (.integer c.nonce) (.integer c.fee) c.encoding signature

/-- The bytes on the wire. -/
def encode (c : SpendingCondition) : Except Fault Bytes := do
  let nonce ← Wire.u64 (.integer c.nonce)
  let fee ← Wire.u64 (.integer c.fee)
  return UInt8.ofNat c.mode.code :: c.signer ++ nonce ++ fee ++ UInt8.ofNat c.encoding.code :: c.signature

/-- Read a condition. -/
def read : Reader SpendingCondition := do
  let start ← Reader.position
  let rawMode ← Reader.u8
  match HashMode.ofCode? rawMode with
  | none => Reader.malformed start (.unknownTag .hashMode rawMode)
  | some mode =>
    if !mode.isSingleKey then Reader.malformed start .severalKeys
    let signer ← Reader.take 20
    let nonce ← Reader.u64
    let fee ← Reader.u64
    let encodingAt ← Reader.position
    let rawEncoding ← Reader.u8
    match KeyEncoding.ofCode? rawEncoding with
    | none => Reader.malformed encodingAt (.unknownTag .keyEncoding rawEncoding)
    | some encoding =>
      let signature ← Reader.take signatureWidth
      match make mode signer (.integer nonce) (.integer fee) encoding signature with
      | .ok c => return c
      | .error fault => throw fault

end SpendingCondition

end StacksWallet
