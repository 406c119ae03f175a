import StacksWallet.Clarity.Canonical
import StacksWallet.PostCondition.Asset
import StacksWallet.Wire.Amount

/-!
# Post-conditions

Limits on what a transaction may move, each on an amount of the native token, an amount of a fungible token,
or the ownership of one token. A condition speaks of a principal or of whoever signs as the origin. Amounts
and ownership have code sets of their own, and a code of the wrong set is refused.
-/

namespace StacksWallet

/-- Whose assets a condition limits. -/
inductive Holder where
  /-- Whoever signs as the origin. -/
  | origin
  /-- An account or contract. -/
  | principal (p : Principal)
deriving DecidableEq

/-- A post-condition. -/
inductive PostCondition where
  /-- A limit on the native token. -/
  | native (holder : Holder) (code : AmountCode) (amount : Amount)
  /-- A limit on a fungible token. -/
  | fungible (holder : Holder) (asset : Asset) (code : AmountCode) (amount : Amount)
  /-- A limit on one token. -/
  | nonFungible (holder : Holder) (asset : Asset) (token : Value) (code : OwnershipCode)

/-- A condition code as callers give it. -/
inductive CodeArg where
  /-- An amount comparison. -/
  | amount (code : AmountCode)
  /-- An ownership code. -/
  | ownership (code : OwnershipCode)
  /-- A plain datum, a number as a rule. -/
  | plain (d : Datum)

/-- The amount comparison that a caller gives. -/
def AmountCode.ofArg : CodeArg → Except ConditionFlaw AmountCode
  | .amount code => .ok code
  | .ownership code => .error (.ownershipForAmount code)
  | .plain d =>
    match d.integral?.bind ofCode? with
    | some code => .ok code
    | none => .error (.notAmount d)

/-- The ownership code that a caller gives. -/
def OwnershipCode.ofArg : CodeArg → Except ConditionFlaw OwnershipCode
  | .amount code => .error (.amountForOwnership code)
  | .ownership code => .ok code
  | .plain d =>
    match d.integral?.bind ofCode? with
    | some code => .ok code
    | none => .error (.notOwnership d)

namespace Holder

/-- The holder that an object is. -/
def require : Arg Value → Except Fault Holder
  | .of (.principal p) => .ok (.principal p)
  | .of v => .error (.invalid (.conditionPrincipalKind v.kind))
  | .plain d => .error (.invalid (.conditionPrincipalKind d.kind))

/-- The holder that a text spells, or that an object is. -/
def resolve : Arg Value → Except Fault (Holder ⊕ Arg Value)
  | .plain (.text t) =>
    if t = Text.ofString "origin" then .ok (.inl .origin)
    else (Principal.parse t).map fun p => .inl (.principal p)
  | a => .ok (.inr a)

/-- The holder once texts are resolved. -/
def ofResolved : Holder ⊕ Arg Value → Except Fault Holder
  | .inl holder => .ok holder
  | .inr a => require a

/-- The text of the holder. -/
def text : Holder → Text
  | origin => "origin"
  | principal p => p.text

/-- The bytes on the wire: a tag, then the principal. -/
def encode : Holder → Except Fault Bytes
  | origin => .ok [1]
  | principal p => p.encode.map fun b => (if p.contract?.isSome then 3 else 2) :: b

/-- The bytes of a holder that a text spells or an object is. -/
def encodeArg (a : Arg Value) : Except Fault Bytes := do
  match ← resolve a with
  | .inl holder => holder.encode
  | .inr (.of (.principal p)) => (Holder.principal p).encode
  | .inr (.of v) => throw (.invalid (.unsupportedPrincipal v.kind))
  | .inr (.plain d) => throw (.invalid (.unsupportedPrincipal d.kind))

end Holder

/-- The asset that a text spells, or that an object is. -/
def Asset.resolve : Arg Asset → Except Fault (Arg Asset)
  | .plain (.text t) => (Asset.parse t).map .of
  | a => .ok a

/-- The asset that an object is. -/
def Asset.require : Arg Asset → Except Fault Asset
  | .of a => .ok a
  | .plain _ => .error (.invalid .assetKind)

namespace PostCondition

/-- Whether texts among the arguments are read. -/
inductive Reading where
  /-- Texts are read as principals and assets. -/
  | texts
  /-- Only objects are taken. -/
  | objects
deriving DecidableEq

/-- The holder argument, read as far as texts are. -/
def holderArg (reading : Reading) (a : Arg Value) : Except Fault (Holder ⊕ Arg Value) :=
  match reading with
  | .texts => Holder.resolve a
  | .objects => .ok (.inr a)

/-- The asset argument, read as far as texts are. -/
def assetArg (reading : Reading) (a : Arg Asset) : Except Fault (Arg Asset) :=
  match reading with
  | .texts => Asset.resolve a
  | .objects => .ok a

/-- A limit on the native token. -/
def ofNative (reading : Reading) (holder : Arg Value) (code : CodeArg) (amount : Datum) :
    Except Fault PostCondition := do
  let holder ← Holder.ofResolved (← holderArg reading holder)
  let code ← (AmountCode.ofArg code).mapError ConditionFlaw.toFault
  return native holder code (← Amount.ofDatum "amount" amount)

/-- A limit on a fungible token. -/
def ofFungible (reading : Reading) (holder : Arg Value) (asset : Arg Asset) (code : CodeArg) (amount : Datum) :
    Except Fault PostCondition := do
  let holder ← holderArg reading holder
  let asset ← assetArg reading asset
  let holder ← Holder.ofResolved holder
  let asset ← Asset.require asset
  let code ← (AmountCode.ofArg code).mapError ConditionFlaw.toFault
  return fungible holder asset code (← Amount.ofDatum "amount" amount)

/-- A limit on one token. -/
def ofNonFungible (reading : Reading) (holder : Arg Value) (asset : Arg Asset) (token : Arg Value) (code : CodeArg) :
    Except Fault PostCondition := do
  let holder ← holderArg reading holder
  let asset ← assetArg reading asset
  let holder ← Holder.ofResolved holder
  let asset ← Asset.require asset
  match token with
  | .plain _ => throw (.invalid .tokenKind)
  | .of token => return nonFungible holder asset token (← (OwnershipCode.ofArg code).mapError ConditionFlaw.toFault)

/-- The holder of the condition. -/
def holder : PostCondition → Holder
  | native h .. | fungible h .. | nonFungible h .. => h

/-- Whether two conditions are equal, whatever the order of tuple fields in a token. -/
def equal : PostCondition → PostCondition → Bool
  | native h c a, native h' c' a' => h == h' && c == c' && a == a'
  | fungible h s c a, fungible h' s' c' a' => h == h' && s.equal s' && c == c' && a == a'
  | nonFungible h s t c, nonFungible h' s' t' c' => h == h' && s.equal s' && Value.equal t t' && c == c'
  | _, _ => false

/-- The conditions from a position on. -/
def conditionsFrom (position : Nat) : List (Arg PostCondition) → Except Fault (List PostCondition)
  | [] => .ok []
  | .of pc :: rest => do return pc :: (← conditionsFrom (position + 1) rest)
  | .plain d :: _ => .error (.invalid (.notPostCondition position d.kind))

/-- The conditions among which nothing else may be. -/
def normalize (pcs : List (Arg PostCondition)) : Except Fault (List PostCondition) := conditionsFrom 0 pcs

end PostCondition

end StacksWallet
