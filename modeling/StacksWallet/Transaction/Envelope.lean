import StacksWallet.PostCondition.Codec
import StacksWallet.Transaction.Authorization
import StacksWallet.Transaction.Payload

/-!
# Envelopes

Everything of a transaction that goes over the wire. The bytes that the origin's digest starts from are those
of the envelope with the origin's nonce, fee and signature set to zero and any sponsor replaced by a
placeholder, so that they depend on nothing that is decided later.
-/

namespace StacksWallet

/-- The contents of a transaction. -/
structure Envelope where
  /-- The network. -/
  version : TransactionVersion
  /-- The chain. -/
  chainId : Fin 0x1_0000_0000
  /-- Who authorizes it. -/
  auth : Authorization
  /-- Where it may be anchored. -/
  anchor : AnchorMode
  /-- What happens to assets that no condition mentions. -/
  conditionMode : PostConditionMode
  /-- The limits on what it moves. -/
  conditions : List PostCondition
  /-- What it does. -/
  payload : Payload

/-- A payload as callers give it. -/
abbrev PayloadArg := Arg Payload

/-- An authorization as callers give it. -/
abbrev AuthArg := Arg Authorization

namespace Envelope

/-- A field's alternative, given as a number. -/
def code {α : Type} (field : Text) (ofCode? : Int → Option α) (d : Datum) : Except Fault α :=
  match d.integral?.bind ofCode? with
  | some a => .ok a
  | none => .error (.showing d (.invalid (.notACode field d)))

/-- The chain of a number. -/
def chainOf (d : Datum) : Except Fault (Fin 0x1_0000_0000) :=
  match d with
  | .integer n =>
    match below? _ n with
    | some id => .ok id
    | none => .error (.showing d (.invalid (.chainId d)))
  | _ => .error (.invalid (.chainId d))

/-- The authorization among the arguments. -/
def requireAuth : AuthArg → Except Fault Authorization
  | .of a => .ok a
  | .plain _ => .error (.invalid .authKind)

/-- The payload among the arguments. -/
def requirePayload : PayloadArg → Except Fault Payload
  | .of p => .ok p
  | .plain d => .error (.invalid (.payloadKind d.kind))

/-- The envelope of the given fields. -/
def make (version chainId : Datum) (auth : AuthArg) (payload : PayloadArg) (anchor conditionMode : Datum)
    (conditions : List (Arg PostCondition)) : Except Fault Envelope := do
  let version ← code "version" TransactionVersion.ofCode? version
  let chainId ← chainOf chainId
  let auth ← requireAuth auth
  let payload ← requirePayload payload
  let anchor ← code "anchor_mode" AnchorMode.ofCode? anchor
  let conditionMode ← code "post_condition_mode" PostConditionMode.ofCode? conditionMode
  return ⟨version, chainId, auth, anchor, conditionMode, ← PostCondition.normalize conditions, payload⟩

/-- The bytes on the wire. -/
def encode (e : Envelope) : Except Fault Bytes := do
  let auth ← e.auth.encode
  let conditions ← PostCondition.encodeAll e.conditions
  let payload ← e.payload.encode
  return UInt8.ofNat e.version.code :: bigEndian 4 e.chainId.val ++ auth ++ UInt8.ofNat e.anchor.code ::
    UInt8.ofNat e.conditionMode.code :: conditions ++ payload

/-- The bytes from which the origin's digest starts. -/
def initialBytes (e : Envelope) : Except Fault Bytes := do
  let auth ← e.auth.initial
  encode { e with auth := auth }

/-- The digest that the origin's signature starts from. -/
def initialDigest (e : Envelope) : Except Fault Bytes := e.initialBytes.map Sha512.digest

/-- The envelope on a chain, once everything else is read and nothing is left. -/
def readEnd (rawChain : Nat) (on : Fin 0x1_0000_0000 → Envelope) : Reader Envelope := do
  let left ← Reader.remaining
  if 0 < left then Reader.malformed (← Reader.position) (.trailing .transaction left)
  else
    match chainOf (.integer rawChain) with
    | .ok chainId => return on chainId
    | .error fault => throw fault

/-- Read an envelope. -/
def read (guarded : Bool) : Reader Envelope := do
  let rawVersion ← Reader.u8
  match TransactionVersion.ofCode? rawVersion with
  | none => Reader.malformed 0 (.unknownTag .version rawVersion)
  | some version =>
    let rawChain ← Reader.u32
    let auth ← Authorization.read
    let modesAt ← Reader.position
    let rawAnchor ← Reader.u8
    let rawMode ← Reader.u8
    match AnchorMode.ofCode? rawAnchor, PostConditionMode.ofCode? rawMode with
    | none, _ => Reader.malformed modesAt (.badMode .anchorMode rawAnchor)
    | _, none => Reader.malformed modesAt (.badMode .postConditionMode rawMode)
    | some anchor, some conditionMode =>
      let conditions ← PostCondition.readAll guarded
      let payload ← Payload.read guarded
      readEnd rawChain fun chainId => ⟨version, chainId, auth, anchor, conditionMode, conditions, payload⟩

end Envelope

end StacksWallet
