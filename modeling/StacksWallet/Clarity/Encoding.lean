import StacksWallet.Clarity.Canonical
import StacksWallet.Text.Utf8

/-!
# Values as bytes

Every value has one form on the wire: its tag, then its content. Numbers have sixteen bytes, strings follow
their size in four bytes, lists and tuples follow their count, and the fields of a tuple come in the order of
their names. What has no such form is refused, the part that would be written first being reported.
-/

namespace StacksWallet.Value

/-- Bytes after their size in four bytes. -/
def sized (b : Bytes) : Bytes := bigEndian 4 b.length ++ b

mutual

/-- The bytes of a value in canonical form. -/
def bytes : Value → Bytes
  | int n => 0 :: bigEndianSigned 16 n.val
  | uint n => 1 :: bigEndian 16 n.val
  | buffer b => 2 :: sized b.val
  | bool b => [if b then 3 else 4]
  | principal p => (if p.contract?.isSome then 6 else 5) :: p.bytes
  | ok v => 7 :: bytes v
  | err v => 8 :: bytes v
  | none => [9]
  | some v => 10 :: bytes v
  | list items => 11 :: (bigEndian 4 items.length ++ itemsBytes items)
  | tuple fields => 12 :: (bigEndian 4 fields.length ++ fieldsBytes fields)
  | ascii t => 13 :: sized (t.val.map fun c => UInt8.ofNat c.val)
  | utf8 t => 14 :: sized (Utf8.bytes t.val)

/-- The bytes of values one after the other. -/
def itemsBytes : List Value → Bytes
  | [] => []
  | v :: rest => bytes v ++ itemsBytes rest

/-- The bytes of fields one after the other. -/
def fieldsBytes : List (Name × Value) → Bytes
  | [] => []
  | (key, v) :: rest => key.encode ++ (bytes v ++ fieldsBytes rest)

end

/-- The fault of a size or count that has no four bytes. -/
def sizeFlaw? (n : Nat) : Option Fault :=
  if n < wordCount 4 then Option.none else Option.some (.argument (.u32Range (.integer n)))

mutual

/-- What keeps a value in canonical form from the wire. -/
def flaw? : Value → Option Fault
  | buffer b => sizeFlaw? b.val.length
  | principal p => p.flaw?
  | some v | ok v | err v => flaw? v
  | list items => (sizeFlaw? items.length).or (itemsFlaw? items)
  | tuple fields => (sizeFlaw? fields.length).or (fieldsFlaw? fields)
  | ascii t => sizeFlaw? t.val.length
  | utf8 t => sizeFlaw? (Utf8.bytes t.val).length
  | _ => Option.none

/-- What keeps the first of several values that cannot be written from the wire. -/
def itemsFlaw? : List Value → Option Fault
  | [] => Option.none
  | v :: rest => (flaw? v).or (itemsFlaw? rest)

/-- What keeps the first of several fields that cannot be written from the wire. -/
def fieldsFlaw? : List (Name × Value) → Option Fault
  | [] => Option.none
  | (_, v) :: rest => (flaw? v).or (fieldsFlaw? rest)

end

/-- The bytes of a value. -/
def encode (v : Value) : Except Fault Bytes :=
  match v.canonical.flaw? with
  | Option.some fault => .error fault
  | Option.none => .ok v.canonical.bytes

/-- The bytes of what may be no value. -/
def encodeArg : Arg Value → Except Fault Bytes
  | .of v => v.encode
  | .plain d => .error (.invalid (.notEncodable d.kind))

/-- The bytes of several values one after the other. -/
def encodeAll : List Value → Except Fault Bytes
  | [] => .ok []
  | v :: rest => do
    let b ← v.encode
    return b ++ (← encodeAll rest)

end StacksWallet.Value
