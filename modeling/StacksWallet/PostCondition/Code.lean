/-!
# Condition codes

What a post-condition says about its asset: how the amount that moves compares with a bound, or whether one
token moves at all. The two sets of codes are apart and have numbers of their own.
-/

namespace StacksWallet

/-- How the amount sent compares with a bound. -/
inductive AmountCode where
  /-- Exactly the bound. -/
  | equal
  /-- More than the bound. -/
  | greater
  /-- The bound or more. -/
  | greaterEqual
  /-- Less than the bound. -/
  | less
  /-- The bound or less. -/
  | lessEqual
deriving DecidableEq

namespace AmountCode

/-- The code's number on the wire. -/
def code : AmountCode → Nat
  | equal => 1
  | greater => 2
  | greaterEqual => 3
  | less => 4
  | lessEqual => 5

/-- The code's name. -/
def name : AmountCode → String
  | equal => "EQUAL"
  | greater => "GREATER"
  | greaterEqual => "GREATER_EQUAL"
  | less => "LESS"
  | lessEqual => "LESS_EQUAL"

/-- All codes. -/
def all : List AmountCode := [equal, greater, greaterEqual, less, lessEqual]

/-- The code with a number. -/
def ofCode? (n : Int) : Option AmountCode := all.find? fun c => (c.code : Int) == n

end AmountCode

/-- Whether a token moves. -/
inductive OwnershipCode where
  /-- The token is sent. -/
  | sent
  /-- The token is not sent. -/
  | notSent
deriving DecidableEq

namespace OwnershipCode

/-- The code's number on the wire. -/
def code : OwnershipCode → Nat
  | sent => 0x10
  | notSent => 0x11

/-- The code's name. -/
def name : OwnershipCode → String
  | sent => "SENT"
  | notSent => "NOT_SENT"

/-- All codes. -/
def all : List OwnershipCode := [sent, notSent]

/-- The code with a number. -/
def ofCode? (n : Int) : Option OwnershipCode := all.find? fun c => (c.code : Int) == n

end OwnershipCode

end StacksWallet
