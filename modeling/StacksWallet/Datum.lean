import StacksWallet.Bytes.Hex
import StacksWallet.Number.Binary64
import StacksWallet.Text.Quoted

/-!
# Plain data from callers

Amounts, names, keys and codes come from callers as plain data, and a datum may be of a kind that the
operation does not take. A datum knows its kind and how a message shows it.
-/

namespace StacksWallet

/-- A plain datum. -/
inductive Datum where
  /-- Nothing was given. -/
  | absent
  /-- A truth value. -/
  | flag (b : Bool)
  /-- An integer of any size. -/
  | integer (n : Int)
  /-- A double-precision number. -/
  | real (x : Binary64)
  /-- A text. -/
  | text (t : Text)
  /-- A byte string. -/
  | bytes (b : Bytes)
deriving DecidableEq

namespace Datum

/-- The name of the datum's kind. -/
def kind : Datum → String
  | absent => "NoneType"
  | flag _ => "bool"
  | integer _ => "int"
  | real _ => "float"
  | text _ => "str"
  | bytes _ => "bytes"

/-- The datum as a message shows it. -/
def shown : Datum → Text
  | absent => "None"
  | flag b => if b then "True" else "False"
  | integer n => Text.ofInt n
  | real x => x.display
  | text t => t.quoted
  | bytes b => Bytes.quoted b

/-- Whether a message can show the datum. An integer of more digits than are converted has no text. -/
def isShowable : Datum → Bool
  | integer n => n.natAbs < Nat.pow 10 maxNumeralDigits
  | _ => true

/-- The integer of a number with an integral value; truth values count as zero and one. -/
def integral? : Datum → Option Int
  | integer n => some n
  | flag b => some (if b then 1 else 0)
  | real x =>
    if x.isNaN || x.isInfinite then none
    else
      let (num, den) := x.ratio
      if num % den = 0 then some (if x.isNegative then -(num / den : Nat) else (num / den : Nat)) else none
  | _ => none

end Datum

/-- An argument: of the domain type that is asked for, or a plain datum. -/
inductive Arg (α : Type) where
  /-- An object of the domain type. -/
  | of (a : α)
  /-- A plain datum. -/
  | plain (d : Datum)

/-- Why a datum yields no bytes. -/
inductive ByteSourceFlaw where
  /-- The text is no hexadecimal text. -/
  | hex (flaw : HexFlaw)
  /-- Only a text can be read here. -/
  | notText
  /-- The datum is neither text nor bytes. -/
  | unsupported (kind : String)
deriving DecidableEq

namespace Datum

/-- Bytes as they are, or a hexadecimal text. -/
def toBytes : Datum → Except ByteSourceFlaw Bytes
  | bytes b => .ok b
  | text t => (Hex.read t).mapError .hex
  | d => .error (.unsupported d.kind)

/-- A hexadecimal text. -/
def hexBytes : Datum → Except ByteSourceFlaw Bytes
  | text t => (Hex.read t).mapError .hex
  | _ => .error .notText

end Datum

end StacksWallet
