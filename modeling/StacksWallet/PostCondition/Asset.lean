import StacksWallet.Clarity.Principal

/-!
# Assets

A token is named by the contract that issues it and a name within the contract. The text of an asset is the
contract's principal, two colons and the name. The version of the contract's address is kept as it was given:
it is looked at when the asset is shown or written, not before.
-/

namespace StacksWallet

/-- A token of a contract. -/
structure Asset where
  /-- The version of the contract's address. -/
  version : Datum
  /-- The hash of the contract's account. -/
  hash : Hash160
  /-- The contract. -/
  contract : Name
  /-- The token's name in the contract. -/
  name : Name
deriving DecidableEq

namespace Asset

/-- The asset of the given parts. -/
def make (version hash contract name : Datum) : Except Fault Asset := do
  let contract ← Name.ofDatum "contract_name" contract
  let name ← Name.ofDatum "asset_name" name
  match hash with
  | .bytes b =>
    match Hash160.ofBytes? b with
    | some hash => return ⟨version, hash, contract, name⟩
    | none => throw (.invalid .assetHashSize)
  | _ => throw .mistyped

/-- The asset of a contract at an address. -/
def ofContract (address contract name : Datum) : Except Fault Asset := do
  let (version, hash) ← Address.parseParts (← Address.requireText address)
  make (.integer version.val) (.bytes hash.val) contract name

/-- The asset that an identifier names. -/
def parse (t : Text) : Except Fault Asset :=
  match Text.cut? "::" t with
  | none => .error (.invalid (.assetForm t))
  | some (contract, name) =>
    match Text.cut? "." contract with
    | none => .error (.invalid (.assetForm t))
    | some (address, contract) => ofContract (.text address) (.text contract) (.text name)

/-- The asset that a caller gives as text. -/
def ofDatum : Datum → Except Fault Asset
  | .text t => parse t
  | _ => .error .inapplicable

/-- The text of the asset, if its version is that of a principal. -/
def text (a : Asset) : Except Fault Text := do
  let p ← Principal.contract a.version (.bytes a.hash.val) (.text a.contract.text)
  return p.text ++ "::" ++ a.name.text

/-- Whether two versions are the same number, truth values counting as zero and one, or the same datum. -/
def sameVersion (a b : Datum) : Bool :=
  match a.integral?, b.integral? with
  | some m, some n => m == n
  | _, _ => a == b

/-- Whether two assets are equal. -/
def equal (a b : Asset) : Bool :=
  sameVersion a.version b.version && a.hash == b.hash && a.contract == b.contract && a.name == b.name

/-- The bytes on the wire, if the version has a byte. -/
def encode (a : Asset) : Except Fault Bytes := do
  let version ← Wire.u8 a.version
  return version ++ a.hash.val ++ a.contract.encode ++ a.name.encode

/-- Read an asset. -/
def read : Reader Asset := do
  let version ← Reader.u8
  let hash ← Reader.take 20
  let contract ← Name.read .contract
  let name ← Name.read .asset
  match Hash160.ofBytes? hash with
  | some hash => return ⟨.integer version, hash, contract, name⟩
  | none => throw (.invalid .assetHashSize)

end Asset

end StacksWallet
