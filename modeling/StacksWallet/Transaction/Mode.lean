import StacksWallet.Datum

/-!
# Modes of a transaction

The alternatives that a transaction names by one byte each: the network it is for, where it may be anchored,
and whether assets that no condition mentions may move.
-/

namespace StacksWallet

/-- The network that a transaction is for. -/
inductive TransactionVersion where
  /-- The network of value. -/
  | mainnet
  /-- Networks for tests. -/
  | testnet
deriving DecidableEq

namespace TransactionVersion

/-- The version's number on the wire. -/
def code : TransactionVersion → Nat
  | mainnet => 0x00
  | testnet => 0x80

/-- The version's name. -/
def name : TransactionVersion → String
  | mainnet => "MAINNET"
  | testnet => "TESTNET"

/-- The version with a number. -/
def ofCode? (n : Int) : Option TransactionVersion := [mainnet, testnet].find? fun v => (v.code : Int) == n

end TransactionVersion

/-- Where a transaction may be anchored. -/
inductive AnchorMode where
  /-- In blocks that are anchored on chain. -/
  | onChainOnly
  /-- In blocks between anchors. -/
  | offChainOnly
  /-- In either. -/
  | any
deriving DecidableEq

namespace AnchorMode

/-- The mode's number on the wire. -/
def code : AnchorMode → Nat
  | onChainOnly => 1
  | offChainOnly => 2
  | any => 3

/-- The mode's name. -/
def name : AnchorMode → String
  | onChainOnly => "on_chain_only"
  | offChainOnly => "off_chain_only"
  | any => "any"

/-- The mode with a number. -/
def ofCode? (n : Int) : Option AnchorMode :=
  [onChainOnly, offChainOnly, any].find? fun m => (m.code : Int) == n

end AnchorMode

/-- What happens to assets that no condition mentions. -/
inductive PostConditionMode where
  /-- They may move. -/
  | allow
  /-- They may not. -/
  | deny
deriving DecidableEq

namespace PostConditionMode

/-- The mode's number on the wire. -/
def code : PostConditionMode → Nat
  | allow => 1
  | deny => 2

/-- The mode's name. -/
def name : PostConditionMode → String
  | allow => "allow"
  | deny => "deny"

/-- The mode with a number. -/
def ofCode? (n : Int) : Option PostConditionMode := [allow, deny].find? fun m => (m.code : Int) == n

end PostConditionMode

/-- Whether an account pays for itself. -/
inductive AuthKind where
  /-- The origin pays. -/
  | standard
  /-- A sponsor pays. -/
  | sponsored
deriving DecidableEq

namespace AuthKind

/-- The kind's number on the wire. -/
def code : AuthKind → Nat
  | standard => 4
  | sponsored => 5

/-- The kind's name. -/
def name : AuthKind → String
  | standard => "STANDARD"
  | sponsored => "SPONSORED"

end AuthKind

end StacksWallet
