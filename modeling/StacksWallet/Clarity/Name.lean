import StacksWallet.Wire.Cursor
import StacksWallet.Wire.Writer

/-!
# Names

Contracts, functions, assets and tuple fields are named by 1 to 128 ASCII characters. On the wire a name
follows its length in one byte. Names are ordered by their characters, which is the order of their bytes.
-/

namespace StacksWallet

/-- Whether a text can be a name. -/
def Name.admits (t : Text) : Bool := t.all CodePoint.isAscii && 1 ≤ t.length && t.length ≤ 128

/-- A name. -/
structure Name where
  /-- The characters. -/
  text : Text
  /-- They are ASCII, and there are 1 to 128 of them. -/
  isName : Name.admits text = true
deriving DecidableEq

namespace Name

/-- The name that a text is. -/
def ofText (field t : Text) : Except ValueFlaw Name :=
  if h : admits t = true then .ok ⟨t, h⟩
  else if t.all CodePoint.isAscii then .error (.nameSize field t.length)
  else .error (.nameForeign field t)

/-- The name that a caller gives for a field. -/
def ofDatum (field : Text) : Datum → Except Fault Name
  | .text t => (ofText field t).mapError .invalid
  | d => .error (.invalid (.nameKind field d.kind))

/-- The bytes of the characters. -/
def bytes (n : Name) : Bytes := n.text.map fun c => UInt8.ofNat c.val

/-- The bytes on the wire. -/
def encode (n : Name) : Bytes := bigEndian 1 n.bytes.length ++ n.bytes

/-- Whether a name comes strictly before another one. -/
def precedes (a b : Name) : Bool := decide (a.text < b.text)

/-- Read a name. -/
def read (what : NameKind) : Reader Name := do
  let start ← Reader.position
  let raw ← Reader.shortBytes
  let t : Text := raw.map fun b => CodePoint.ofNat b.toNat
  if h : admits t = true then return ⟨t, h⟩ else Reader.malformed start (.badName what raw)

end Name

end StacksWallet
