import StacksWallet.Network
import StacksWallet.Transaction.Basic

/-!
# Building transactions

A transfer or call from its parts. The origin is given by its public key, or by its private key, in which
case the transaction comes back signed.
-/

namespace StacksWallet.Transaction

/-- What every transaction that is built has in common. -/
structure Order where
  /-- The origin's public key. -/
  publicKey : Datum := .absent
  /-- The origin's private key, which takes precedence. -/
  senderKey : KeyArg := .plain .absent
  /-- The network. -/
  network : Network := Network.mainnet
  /-- The origin's nonce. -/
  nonce : Datum := .integer 0
  /-- The fee. -/
  fee : Datum := .integer 0
  /-- Where it may be anchored. -/
  anchor : Datum := .integer AnchorMode.any.code
  /-- What happens to assets that no condition mentions. -/
  conditionMode : Datum := .integer PostConditionMode.deny.code
  /-- The limits on what it moves. -/
  conditions : List (Arg PostCondition) := []
  /-- Whether somebody else pays. -/
  sponsored : Bool := false
  /-- How the origin's account is derived from its key. -/
  hashMode : Datum := .integer HashMode.p2pkh.code

/-- The signer of the private key, if one is given. -/
def Order.signer? (scheme : SignatureScheme) (o : Order) : Except Fault (Option Signer) :=
  match o.senderKey with
  | .of signer => .ok (some signer)
  | .plain .absent => .ok none
  | .plain key => (Signer.ofKey scheme key).map some

/-- A compressed public key as callers give it. -/
def requirePublicKey (key : Datum) : Except Fault Bytes :=
  match key.toBytes with
  | .error flaw => .error (.invalid (.publicKeySource flaw))
  | .ok b =>
    if b.length = 33 && (b.head? == some 2 || b.head? == some 3) then .ok b else .error (.invalid .publicKeyForm)

/-- The origin's public key. -/
def Order.originKey (o : Order) : Option Signer → Except Fault Bytes
  | some signer => .ok signer.publicKey
  | none => if o.publicKey = .absent then .error (.invalid .keyMissing) else requirePublicKey o.publicKey

/-- The origin's condition. -/
def Order.origin (o : Order) (signer? : Option Signer) : Except Fault SpendingCondition := do
  let key ← o.originKey signer?
  SpendingCondition.ofPublicKey (.bytes key) o.nonce o.fee o.hashMode

/-- The transaction with a payload, signed if the private key is known. -/
def Order.finish (scheme : SignatureScheme) (o : Order) (signer? : Option Signer) (origin : SpendingCondition)
    (payload : Payload) : Except Fault Transaction := do
  let auth := if o.sponsored then Authorization.sponsored origin none else Authorization.standard origin
  let t ← new o.network.version o.network.chainId auth (.of payload) o.anchor o.conditionMode o.conditions
  match signer? with
  | none => return t
  | some signer =>
    match (sign scheme (.of signer)).run t with
    | (.ok _, t') => return t'
    | (.error fault, _) => throw fault

/-- The transaction of an order whose payload is made last. -/
def Order.build (scheme : SignatureScheme) (o : Order) (payload : Except Fault Payload) : Except Fault Transaction := do
  let signer? ← o.signer? scheme
  let origin ← o.origin signer?
  o.finish scheme signer? origin (← payload)

/-- A transfer of the native token. -/
def ofTransfer (scheme : SignatureScheme) (o : Order) (recipient : Arg Value) (amount memo : Datum) :
    Except Fault Transaction :=
  o.build scheme (Payload.makeTransfer recipient amount memo)

/-- A call of a contract's function. -/
def ofCall (scheme : SignatureScheme) (o : Order) (address : Arg Address) (contract function : Datum)
    (arguments : List (Arg Value)) : Except Fault Transaction :=
  o.build scheme (Payload.makeCall address contract function arguments)

end StacksWallet.Transaction
