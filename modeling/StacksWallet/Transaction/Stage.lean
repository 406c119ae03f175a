/-!
# Stages of a transaction

A transaction is unsigned, then signed, then serialized, and each operation is allowed in some of these
stages only.
-/

namespace StacksWallet

/-- How far a transaction has come. -/
inductive Stage where
  /-- Nonce and fee may still change. -/
  | unsigned
  /-- The origin has signed. -/
  | signed
  /-- The bytes for the network have been made. -/
  | serialized
deriving DecidableEq

/-- The stage's name. -/
def Stage.name : Stage → String
  | .unsigned => "unsigned"
  | .signed => "signed"
  | .serialized => "serialized"

/-- The operations that are bound to stages. -/
inductive Act where
  /-- Change the origin's nonce. -/
  | setNonce
  /-- Change the origin's fee. -/
  | setFee
  /-- Sign as the origin. -/
  | sign
  /-- Attach a sponsor. -/
  | sponsor
  /-- Check the signatures. -/
  | verify
  /-- Make the bytes for the network. -/
  | serialize
deriving DecidableEq

/-- The operation's name. -/
def Act.name : Act → String
  | setNonce => "set_nonce"
  | setFee => "set_fee"
  | sign => "sign"
  | sponsor => "sponsor"
  | verify => "verify"
  | serialize => "serialize"

end StacksWallet
