import StacksWallet.Clarity.Decoding
import StacksWallet.Wire.Amount

/-!
# Payloads

What a transaction does: it transfers the native token or calls a function of a contract. A transfer carries
a memo of exactly 34 bytes, shorter ones being filled up with zeros at the end, so that a payload that was
read equals the one that was written.
-/

namespace StacksWallet

/-- The size of a memo. -/
def memoWidth : Nat := 34

/-- A memo with its padding. -/
abbrev Memo := { b : Bytes // b.length = memoWidth }

namespace Memo

/-- Bytes filled up with zeros, if they are not too many. -/
def ofBytes (b : Bytes) : Except ValueFlaw Memo :=
  if h : b.length ≤ memoWidth then
    .ok ⟨b ++ Bytes.zeros (memoWidth - b.length), by
      rw [List.length_append, Bytes.zeros_length]
      omega⟩
  else .error (.memoSize b.length)

/-- The bytes that a caller gives: none, bytes, or the UTF-8 form of a text. -/
def bytesOf : Datum → Except Fault Bytes
  | .absent => .ok []
  | .text t => (Utf8.encode t).mapError .unencodable
  | .bytes b => .ok b
  | d => .error (.invalid (.memoKind d.kind))

/-- The memo that a caller gives. -/
def ofDatum (d : Datum) : Except Fault Memo := do
  let b ← bytesOf d
  (ofBytes b).mapError .invalid

/-- The memo without its padding, as far as it is text. -/
def text (m : Memo) : Text := Utf8.decodeLenient (m.val.reverse.dropWhile (· == 0)).reverse

end Memo

/-- What a transaction does. -/
inductive Payload where
  /-- Transfer the native token. -/
  | transfer (recipient : Principal) (amount : Amount) (memo : Memo)
  /-- Call a function of a contract. -/
  | call (address : Address) (contract : Name) (function : Name) (arguments : List Value)

namespace Payload

/-- The recipient that a text spells or an object is. -/
def recipientOf : Arg Value → Except Fault Principal
  | .plain (.text t) => Principal.parse t
  | .of (.principal p) => .ok p
  | _ => .error (.invalid .recipientKind)

/-- A transfer; the memo is looked at last. -/
def ofTransfer (recipient : Arg Value) (amount memo : Datum) : Except Fault Payload := do
  let recipient ← recipientOf recipient
  let amount ← Amount.ofDatum "amount" amount
  return transfer recipient amount (← Memo.ofDatum memo)

/-- A transfer; the memo is looked at first. -/
def makeTransfer (recipient : Arg Value) (amount memo : Datum) : Except Fault Payload := do
  let memo ← Memo.ofDatum memo
  ofTransfer recipient amount (.bytes memo.val)

/-- The contract's address that a text spells or an object is. -/
def contractAddressOf : Arg Address → Except Fault Address
  | .of a => .ok a
  | .plain (.text t) => Address.parse t
  | .plain _ => .error (.invalid .contractAddressKind)

/-- The arguments from a position on. -/
def argumentsFrom (position : Nat) : List (Arg Value) → Except Fault (List Value)
  | [] => .ok []
  | .of v :: rest => do return v :: (← argumentsFrom (position + 1) rest)
  | .plain d :: _ => .error (.invalid (.argumentKind position d.kind))

/-- A call. -/
def makeCall (address : Arg Address) (contract function : Datum) (arguments : List (Arg Value)) :
    Except Fault Payload := do
  let address ← contractAddressOf address
  let contract ← Name.ofDatum "contract_name" contract
  let function ← Name.ofDatum "function_name" function
  return call address contract function (← argumentsFrom 0 arguments)

/-- The text of the called contract. -/
def contractText (address : Address) (contract : Name) : Text := address.text ++ "." ++ contract.text

/-- The name of the payload's kind. -/
def kind : Payload → String
  | transfer .. => "TokenTransferPayload"
  | call .. => "ContractCallPayload"

/-- Whether two payloads are equal, whatever the order of tuple fields in arguments. -/
def equal : Payload → Payload → Bool
  | transfer r a m, transfer r' a' m' => r == r' && a == a' && m == m'
  | call a c f vs, call a' c' f' vs' => a == a' && c == c' && f == f' && Value.equal (.list vs) (.list vs')
  | _, _ => false

/-- The bytes on the wire. -/
def encode : Payload → Except Fault Bytes
  | transfer recipient amount memo => do
    return 0 :: (← (Value.principal recipient).encode) ++ amount.bytes ++ memo.val
  | call address contract function arguments => do
    let version ← address.version.encode
    let count ← Wire.size arguments.length
    let arguments ← Value.encodeAll arguments
    return 2 :: version ++ address.hash.val ++ contract.encode ++ function.encode ++ count ++ arguments

/-- The address of a version and a hash that were read. -/
def addressRead (version : Nat) (hash : Bytes) : Except AddressFlaw Address :=
  match below? _ version with
  | none => .error (.versionRange (.integer version))
  | some version =>
    match Hash160.ofBytes? hash with
    | some hash => .ok ⟨.whole version, hash⟩
    | none => .error (.hashSize hash.length)

/-- Read a payload. -/
def read (guarded : Bool) : Reader Payload := do
  let start ← Reader.position
  let tag ← Reader.u8
  if tag = 0 then
    match (← Value.read guarded).principal? with
    | none => Reader.malformed (start + 1) .recipientKind
    | some recipient =>
      let amount ← Amount.read "amount"
      let raw ← Reader.take memoWidth
      match Memo.ofBytes raw with
      | .ok memo => return transfer recipient amount memo
      | .error flaw => throw (.invalid flaw)
  else if tag = 2 then
    let version ← Reader.u8
    let hash ← Reader.take 20
    let address ← Reader.require (start + 1) .contractAddress (addressRead version hash)
    let contract ← Name.read .contract
    let function ← Name.read .function
    let n ← Reader.count guarded .arguments
    return call address contract function (← Reader.times (Value.read guarded) n)
  else Reader.malformed start (.unknownTag .payload tag)

/-- The payload that stands in some bytes at an offset, and the number of its bytes. -/
def decode (b : Bytes) (offset : Int) : Except Fault (Payload × Int) := Reader.decodeAt (read true) b offset

end Payload

end StacksWallet
