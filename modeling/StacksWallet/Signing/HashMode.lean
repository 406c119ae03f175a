import StacksWallet.Bytes.Basic

/-!
# Hash modes and key encodings

How an account's hash is derived from its keys, and how a key is serialized. Transactions carry both as one
byte each. Only the two modes that take a single key can be spent from here.
-/

namespace StacksWallet

/-- How an account's hash is derived from its keys. -/
inductive HashMode where
  /-- The hash of one public key. -/
  | p2pkh
  /-- The hash of a script of several keys. -/
  | p2sh
  /-- The hash of a witness program of one public key. -/
  | p2wpkh
  /-- The hash of a witness program of several keys. -/
  | p2wsh
deriving DecidableEq

namespace HashMode

/-- The mode's number on the wire. -/
def code : HashMode → Nat
  | p2pkh => 0
  | p2sh => 1
  | p2wpkh => 2
  | p2wsh => 3

/-- The mode's name. -/
def name : HashMode → String
  | p2pkh => "P2PKH"
  | p2sh => "P2SH"
  | p2wpkh => "P2WPKH"
  | p2wsh => "P2WSH"

/-- All modes. -/
def all : List HashMode := [p2pkh, p2sh, p2wpkh, p2wsh]

/-- The mode with a number. -/
def ofCode? (n : Int) : Option HashMode := all.find? fun mode => (mode.code : Int) == n

/-- Whether the mode takes a single key. -/
def isSingleKey : HashMode → Bool
  | p2pkh | p2wpkh => true
  | p2sh | p2wsh => false

end HashMode

/-- How a public key is serialized. -/
inductive KeyEncoding where
  /-- 33 bytes. -/
  | compressed
  /-- 65 bytes. -/
  | uncompressed
deriving DecidableEq

namespace KeyEncoding

/-- The encoding's number on the wire. -/
def code : KeyEncoding → Nat
  | compressed => 0
  | uncompressed => 1

/-- The encoding's name. -/
def name : KeyEncoding → String
  | compressed => "COMPRESSED"
  | uncompressed => "UNCOMPRESSED"

/-- The encoding with a number. -/
def ofCode? (n : Int) : Option KeyEncoding := [compressed, uncompressed].find? fun e => (e.code : Int) == n

end KeyEncoding

end StacksWallet
