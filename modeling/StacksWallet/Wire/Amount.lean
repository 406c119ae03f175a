import StacksWallet.Wire.Cursor
import StacksWallet.Wire.Writer

/-!
# Amounts

Amounts of money, fees and nonces are unsigned numbers of 64 bits. Callers must give an integer, not merely
a number with an integral value.
-/

namespace StacksWallet

/-- An unsigned number of 64 bits. -/
abbrev Amount := Fin 0x1_0000_0000_0000_0000

namespace Amount

/-- The number that a caller gives for a field. -/
def ofDatum (field : Text) (d : Datum) : Except Fault Amount :=
  match d with
  | .integer n =>
    match below? _ n with
    | some a => .ok a
    | none => .error (.showing d (.invalid (.notU64 field d)))
  | _ => .error (.invalid (.notU64 field d))

/-- The bytes on the wire. -/
def bytes (a : Amount) : Bytes := bigEndian 8 a.val

/-- Read a number for a field. -/
def read (field : Text) : Reader Amount := do
  let n ← Reader.u64
  match below? _ n with
  | some a => return a
  | none => throw (.invalid (.notU64 field (.integer n)))

end Amount

end StacksWallet
