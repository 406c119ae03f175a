import StacksWallet.Address.Basic
import StacksWallet.Clarity.Name

/-!
# Principals

A principal is an account or a contract that an account has published. Its text is the account's address,
followed by a dot and the contract's name for a contract.
-/

namespace StacksWallet

/-- An account, or one of its contracts. -/
structure Principal where
  /-- The account. -/
  account : Address
  /-- The contract, if it is not the account itself. -/
  contract? : Option Name
deriving DecidableEq

namespace Principal

/-- The version that a principal takes: a number from zero to below 32. -/
def versionOf (d : Datum) : Except Fault Version :=
  match d with
  | .real x =>
    if Wire.realUpTo 32 x && x.ratio.1 < 32 * x.ratio.2 then .ok (.real x) else .error (.invalid (.versionRange d))
  | _ =>
    match Wire.whole? d with
    | none => .error .mistyped
    | some n =>
      match below? _ n with
      | some n => .ok (.whole n)
      | none => .error (.showing d (.invalid (.versionRange d)))

/-- The account of a version and a hash, as callers give them. -/
def accountOf (version hash : Datum) : Except Fault Address := do
  let version ← versionOf version
  match hash with
  | .bytes b =>
    match Hash160.ofBytes? b with
    | some hash => return ⟨version, hash⟩
    | none => throw (.invalid .hashSize)
  | _ => throw (.invalid .hashSize)

/-- The principal that is an account. -/
def standard (version hash : Datum) : Except Fault Principal := return ⟨← accountOf version hash, none⟩

/-- The principal that is a contract. -/
def contract (version hash name : Datum) : Except Fault Principal := do
  let account ← accountOf version hash
  return ⟨account, some (← Name.ofDatum "contract_name" name)⟩

/-- The version and hash of an address or of the text of one. -/
def partsOf : Arg Address → Except Fault (Datum × Datum)
  | .of a => .ok (a.version.toDatum, .bytes a.hash.val)
  | .plain d => do
    let (version, hash) ← Address.parseParts (← Address.requireText d)
    return (.integer version.val, .bytes hash.val)

/-- The principal at an address. -/
def ofAddress (address : Arg Address) : Except Fault Principal := do
  let (version, hash) ← partsOf address
  standard version hash

/-- The contract of a name at an address. -/
def ofContract (address : Arg Address) (name : Datum) : Except Fault Principal := do
  let (version, hash) ← partsOf address
  contract version hash name

/-- The principal that a text spells. -/
def parse (t : Text) : Except Fault Principal :=
  match Text.cut? "." t with
  | some (address, name) => ofContract (.plain (.text address)) (.text name)
  | none => ofAddress (.plain (.text t))

/-- The principal that a caller gives as text. -/
def ofDatum : Datum → Except Fault Principal
  | .text t => parse t
  | _ => .error .inapplicable

/-- The text of the principal. -/
def text (p : Principal) : Text :=
  match p.contract? with
  | none => p.account.text
  | some name => p.account.text ++ "." ++ name.text

/-- The bytes of version, hash and name on the wire. -/
def bytes (p : Principal) : Bytes :=
  UInt8.ofNat p.account.version.toFin.val :: (p.account.hash.val ++ (p.contract?.map Name.encode).getD [])

/-- What keeps the principal from the wire: a version that is no whole number. -/
def flaw? (p : Principal) : Option Fault :=
  match p.account.version with
  | .whole _ => none
  | .real _ | .numeral .. => some (.packing .notAnInteger)

/-- The bytes of version, hash and name on the wire, if the version has a byte. -/
def encode (p : Principal) : Except Fault Bytes :=
  match p.flaw? with
  | some fault => .error fault
  | none => .ok p.bytes

/-- The account of a version and a hash that were read. -/
def accountRead (version : Nat) (hash : Bytes) : Except ValueFlaw Address :=
  match below? _ version with
  | none => .error (.versionRange (.integer version))
  | some version =>
    match Hash160.ofBytes? hash with
    | some hash => .ok ⟨.whole version, hash⟩
    | none => .error .hashSize

/-- Read an account's principal. -/
def readStandard : Reader Principal := do
  let version ← Reader.u8
  let hash ← Reader.take 20
  let account ← Reader.require (← Reader.position) .value (accountRead version hash)
  return ⟨account, none⟩

/-- Read a contract's principal. -/
def readContract : Reader Principal := do
  let version ← Reader.u8
  let hash ← Reader.take 20
  let name ← Name.read .contract
  let account ← Reader.require (← Reader.position) .value (accountRead version hash)
  return ⟨account, some name⟩

end Principal

end StacksWallet
