import StacksWallet.Transaction.Envelope

/-!
# Transactions

An envelope with the stage it has come to and the bytes once they are made. Nonce and fee change only while a
transaction is unsigned, and its bytes are made only once it is signed, so that nothing that a signature
covers changes under it. Attaching a sponsor drops the bytes; clearing the signatures goes back to the start.
Each operation is a state transformer that fails with a fault.
-/

namespace StacksWallet

/-- A transaction. -/
structure Transaction where
  /-- Its contents. -/
  envelope : Envelope
  /-- How far it has come. -/
  stage : Stage
  /-- The bytes for the network, if they are made. -/
  cached? : Option Bytes

/-- A private key, or its signer. -/
abbrev KeyArg := Arg Signer

namespace Transaction

/-- An operation on a transaction. -/
abbrev Op := ExceptT Fault (StateM Transaction)

/-- The transaction of an envelope. -/
def ofEnvelope (e : Envelope) : Transaction :=
  ⟨e, if e.auth.origin.isSigned then .signed else .unsigned, none⟩

/-- The transaction of the given fields. -/
def make (version chainId : Datum) (auth : AuthArg) (payload : PayloadArg) (anchor conditionMode : Datum)
    (conditions : List (Arg PostCondition)) : Except Fault Transaction :=
  (Envelope.make version chainId auth payload anchor conditionMode conditions).map ofEnvelope

/-- A new transaction, which must not be signed yet. -/
def new (version : TransactionVersion) (chainId : Nat) (auth : Authorization) (payload : PayloadArg)
    (anchor conditionMode : Datum) (conditions : List (Arg PostCondition)) : Except Fault Transaction :=
  if auth.origin.isSigned then .error (.invalid .alreadySigned)
  else make (.integer version.code) (.integer chainId) (.of auth) payload anchor conditionMode conditions

/-- The transaction that some bytes are; `guarded` says whether counts are checked before their elements. -/
def ofBytes (guarded : Bool) (b : Bytes) : Except Fault Transaction :=
  (Reader.decodeAt (Envelope.read guarded) b 0).map fun (e, _) => ofEnvelope e

/-- The transaction that bytes or a hexadecimal text are. -/
def deserialize (d : Datum) : Except Fault Transaction :=
  match d.toBytes with
  | .ok b => ofBytes true b
  | .error flaw => .error (.malformed none (.transactionSource flaw))

/-- The origin's nonce. -/
def nonce (t : Transaction) : Int := t.envelope.auth.origin.nonce

/-- The origin's fee. -/
def fee (t : Transaction) : Int := t.envelope.auth.origin.fee

/-- The transaction with another origin. -/
def withOrigin (t : Transaction) (origin : SpendingCondition) : Transaction :=
  { t with envelope.auth.origin := origin }

/-- The transaction with another sponsor. -/
def withSponsor (t : Transaction) (sponsor : SpendingCondition) : Transaction :=
  { t with envelope.auth.sponsor? := some sponsor }

/-- The digest that the origin's signature starts from. -/
def initialDigest (t : Transaction) : Except Fault Bytes := t.envelope.initialDigest

/-- The signer of a key. -/
def signerOf (scheme : SignatureScheme) : KeyArg → Except Fault Signer
  | .of signer => .ok signer
  | .plain key => Signer.ofKey scheme key

/-- Fail unless the transaction is in one of some stages. -/
def require (act : Act) (allowed : List Stage) : Op Unit := do
  let stage := (← get).stage
  if allowed.contains stage then return () else throw (.stage (.notNow act stage))

/-- The stages of a transaction with a signature. -/
def signedStages : List Stage := [.signed, .serialized]

/-- Set the origin's nonce. -/
def setNonce (nonce : Datum) : Op Unit := do
  require .setNonce [.unsigned]
  let origin ← (← get).envelope.auth.origin.withNonce nonce
  modify (·.withOrigin origin)

/-- Set the origin's fee. -/
def setFee (fee : Datum) : Op Unit := do
  require .setFee [.unsigned]
  let origin ← (← get).envelope.auth.origin.withFee fee
  modify (·.withOrigin origin)

/-- Drop all signatures and any sponsor, and start again. -/
def clearSignatures : Op Unit := do
  let origin ← (← get).envelope.auth.origin.withSignature emptySignature
  modify (·.withOrigin origin)
  if (← get).envelope.auth.isSponsored then modify (·.withSponsor SpendingCondition.sentinel)
  modify ({ · with stage := .unsigned, cached? := none })

/-- Sign as the origin; the key must be the one that the origin commits to. -/
def sign (scheme : SignatureScheme) (key : KeyArg) : Op Unit := do
  require .sign [.unsigned]
  let signer ← signerOf scheme key
  let origin := (← get).envelope.auth.origin
  let got ← signerHash (.bytes signer.publicKey) (.integer origin.mode.code)
  if got ≠ origin.signer then throw (.signing (.otherKey origin.signer got))
  let running ← (← get).initialDigest
  let (signature, _) ← origin.nextSignature scheme .standard running signer
  let origin ← origin.withSignature signature
  modify fun t => { t.withOrigin origin with stage := .signed, cached? := none }

/-- Attach a sponsor, in place of any earlier one. The origin's signature must hold. -/
def sponsor (scheme : SignatureScheme) (key : KeyArg) (fee nonce mode : Datum) : Op Unit := do
  let t ← get
  if !t.envelope.auth.isSponsored then throw (.stage (.notSponsored t.stage))
  require .sponsor signedStages
  let signer ← signerOf scheme key
  let condition ← SpendingCondition.ofPublicKey (.bytes signer.publicKey) nonce fee mode
  let running ← t.initialDigest
  let running ← t.envelope.auth.origin.nextVerification scheme .standard running
  let (signature, _) ← condition.nextSignature scheme .sponsored running signer
  modify fun t =>
    { t.withSponsor { condition with signature := signature } with stage := .signed, cached? := none }

/-- Check the origin's signature, and the sponsor's if there is one. -/
def verify (scheme : SignatureScheme) : Op Bool := do
  require .verify signedStages
  let t ← get
  let running ← t.initialDigest
  let running ← t.envelope.auth.origin.nextVerification scheme .standard running
  match t.envelope.auth.sponsor? with
  | none => return true
  | some sponsor =>
    if !sponsor.isSentinel then
      let _ ← sponsor.nextVerification scheme .sponsored running
    return true

/-- The bytes for the network. They are made once and kept. -/
def serialize : Op Bytes := do
  require .serialize signedStages
  let t ← get
  match t.cached? with
  | some b => return b
  | none =>
    let b ← t.envelope.encode
    modify ({ · with stage := .serialized, cached? := some b })
    return b

/-- The number of bytes, which does not depend on whether the transaction is signed. -/
def byteLength (t : Transaction) : Except Fault Nat :=
  match t.cached? with
  | some b => .ok b.length
  | none => t.envelope.encode.map (·.length)

/-- The digest that identifies the transaction. -/
def idBytes : Op Bytes := return Sha512.digest (← serialize)

/-- The identifier of the transaction, as hexadecimal figures. -/
def id : Op Text := return Hex.plain (← idBytes)

/-- The bytes for the network, as hexadecimal figures. -/
def toHex : Op Text := return Hex.prefixed (← serialize)

end Transaction

end StacksWallet
