import StacksWallet.Fault.Basic
import StacksWallet.Transaction.Mode

/-!
# Networks

The known networks with the numbers that tell their transactions and addresses apart, and the nodes that
serve them.
-/

namespace StacksWallet

/-- A network. -/
structure Network where
  /-- Its name. -/
  name : Text
  /-- The version of its transactions. -/
  version : TransactionVersion
  /-- The number of its chain. -/
  chainId : Nat
  /-- The version of addresses of one key. -/
  addressVersion : Nat
  /-- The version of addresses of several keys. -/
  multisigVersion : Nat
  /-- Where its nodes answer. -/
  apiUrl : Text
deriving DecidableEq

/-- A text without the slashes at its end. -/
def dropSlashes (t : Text) : Text := t.dropEndWhile (· == 47)

namespace Network

/-- The network of value. -/
def mainnet : Network := ⟨"mainnet", .mainnet, 0x00000001, 22, 20, "https://api.mainnet.hiro.so"⟩

/-- The public network for tests. -/
def testnet : Network := ⟨"testnet", .testnet, 0x80000000, 26, 21, "https://api.testnet.hiro.so"⟩

/-- A network for tests on the same machine. -/
def mocknet : Network := { testnet with name := "mocknet", apiUrl := "http://localhost:3999" }

/-- All networks. -/
def presets : List Network := [mainnet, testnet, mocknet]

/-- Whether money on the network has value. -/
def isMainnet (n : Network) : Bool := n.version == .mainnet

/-- The small letter of a character in a network's name; the Kelvin sign is a capital k. -/
def smallLetter (c : CodePoint) : CodePoint := if c = 0x212A then 107 else c.toAsciiLower

/-- The network with a name, in letters of either case and possibly between blanks. -/
def ofName (name : Text) : Except Fault Network :=
  match presets.find? fun n => n.name == name.strip.map smallLetter with
  | some n => .ok n
  | none => .error (.argument (.unknownNetwork name))

/-- The network that a caller names. -/
def ofDatum : Datum → Except Fault Network
  | .text t => ofName t
  | _ => .error .inapplicable

/-- The network with nodes at another URL, unless the URL is empty. -/
def withApiUrl (n : Network) (url : Text) : Network := if url.isEmpty then n else { n with apiUrl := dropSlashes url }

end Network

end StacksWallet
