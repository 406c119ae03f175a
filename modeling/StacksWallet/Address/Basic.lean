import StacksWallet.Address.C32
import StacksWallet.Datum.Coercion
import StacksWallet.Digest.KeyHash
import StacksWallet.Wire.Writer

/-!
# Addresses

An address is a version and the hash of an account. Its text is the letter S, the figure of the version, and
the figures of the hash followed by a checksum over version and hash. A version is a number whose whole part
is below 32, or a numeral of one, and it is kept as it was given. The text shows the whole part; only a whole number has
a byte on the wire.
-/

namespace StacksWallet

/-- The version of an address. -/
inductive Version where
  /-- A whole number. -/
  | whole (n : Fin 32)
  /-- A number that was given with a fraction, possibly zero. -/
  | real (x : Binary64)
  /-- A numeral, as text or bytes, and what it spells. -/
  | numeral (given : Datum) (n : Fin 32)
deriving DecidableEq

namespace Version

/-- The version that an address takes: the whole part of a number must be below 32. -/
def ofDatum (d : Datum) : Except Fault Version := do
  match below? 32 (← d.truncate) with
  | none => throw (.showing d (.address none (.versionRange d)))
  | some n =>
    match d with
    | .real x => return real x
    | .text _ | .bytes _ => return numeral d n
    | _ => return whole n

/-- The whole part. -/
def toFin : Version → Fin 32
  | whole n | numeral _ n => n
  | real x => Fin.ofNat 32 (x.ratio.1 / x.ratio.2)

/-- The byte on the wire. -/
def encode : Version → Except Fault Bytes
  | whole n => .ok [UInt8.ofNat n.val]
  | real _ | numeral .. => .error (.packing .notAnInteger)

/-- The version as a datum. -/
def toDatum : Version → Datum
  | whole n => .integer n.val
  | real x => .real x
  | numeral given _ => given

end Version

/-- Version and hash of an account. -/
structure Address where
  /-- Says to which network and kind of account the address belongs. -/
  version : Version
  /-- Identifies the account. -/
  hash : Hash160
deriving DecidableEq

namespace Address

/-- The checksum over a version and data. -/
def checksumOf (version : Nat) (data : Bytes) : Bytes := checksum (UInt8.ofNat version :: data)

/-- The text of a version and data of any size. -/
def render (version : Fin 32) (data : Bytes) : Text :=
  "S" ++ [C32.symbol version.val] ++ C32.encode (data ++ checksumOf version.val data)

/-- The text of a version and data of any size, as callers give them. -/
def renderGiven (version data : Datum) : Except Fault Text := do
  let version ← Version.ofDatum version
  return render version.toFin (← data.requireBytes)

/-- The number of a version's character. -/
def versionOf? (c : CodePoint) : Option (Fin 32) :=
  match C32.normalize [c] with
  | [d] => C32.value? d
  | _ => none

/-- The version and data of a text, whose checksum must belong to them. -/
def unrender (t : Text) : Except Fault (Fin 32 × Bytes) :=
  match t with
  | s :: v :: rest =>
    if rest.isEmpty || !(s == 83 || s == 115) then .error (.address (some t) .badStart)
    else
      match versionOf? v with
      | none => .error (.address (some t) (.badVersionCharacter v))
      | some version => do
        let decoded ← C32.decode rest
        if decoded.length < 4 then throw (.address (some t) .tooShort)
        let data := decoded.take (decoded.length - 4)
        if checksumOf version.val data = decoded.drop (decoded.length - 4) then return (version, data)
        else throw (.address (some t) .checksumMismatch)
  | _ => .error (.address (some t) .badStart)

/-- The version and hash of an address in text form. -/
def parseParts (t : Text) : Except Fault (Fin 32 × Hash160) := do
  let (version, data) ← unrender t
  match Hash160.ofBytes? data with
  | some hash => return (version, hash)
  | none => throw (.address (some t) (.decodedSize data.length))

/-- A text, where an address is read. -/
def requireText : Datum → Except Fault Text
  | .text t => .ok t
  | d => .error (.address none (.notText d.kind))

/-- The address of a version and a hash as callers give them. -/
def make (version : Datum) (hash : Bytes) : Except Fault Address := do
  let version ← Version.ofDatum version
  match Hash160.ofBytes? hash with
  | some hash => return ⟨version, hash⟩
  | none => throw (.address none (.hashSize hash.length))

/-- The address that a text spells. -/
def parse (t : Text) : Except Fault Address := do
  let (version, hash) ← parseParts t
  return ⟨.whole version, hash⟩

/-- Whether a datum is the text of an address. -/
def isValid (d : Datum) : Bool := ((requireText d).bind parseParts).isOk

/-- The text of the address. -/
def text (a : Address) : Text := render a.version.toFin a.hash.val

/-- The text of a 20-byte hash under a version. -/
def derive (hash version : Datum) : Except Fault Text := do
  let b ← hash.requireBytes
  if b.length = 20 then renderGiven version (.bytes b) else throw (.address none (.keyHashSize b.length))

/-- The address of a public key. -/
def ofPublicKey (publicKey : Bytes) (version : Int) : Except Fault Address :=
  make (.integer version) (keyHash publicKey).val

end Address

end StacksWallet
