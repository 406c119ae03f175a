import StacksWallet.Bytes.Basic
import StacksWallet.Fault.Basic
import StacksWallet.Number.Digits
import StacksWallet.Text.UpperCase

/-!
# The c32 alphabet

Bytes as figures of base 32 in an alphabet without the letters I, L, O and U. Leading zero bytes become
leading zeros one by one; the rest is the numeral of the bytes' number. A reader takes either case and reads
O as zero and I and L as one.
-/

namespace StacksWallet.C32

/-- The 32 figures. -/
def alphabet : Text := "0123456789ABCDEFGHJKMNPQRSTVWXYZ"

/-- The figure of a number below 32. -/
def symbol (d : Nat) : CodePoint := alphabet.getD d 48

/-- The number of a figure. -/
def value? (c : CodePoint) : Option (Fin 32) :=
  (alphabet.idxOf? c).bind fun n => if h : n < 32 then some ⟨n, h⟩ else none

/-- The figure that a look-alike stands for. -/
def canonical (c : CodePoint) : CodePoint := if c = 79 then 48 else if c = 73 || c = 76 then 49 else c

/-- A text in capitals and without look-alikes. -/
def normalize (t : Text) : Text := t.upper.map canonical

/-- Bytes as figures. -/
def encode (b : Bytes) : Text :=
  List.replicate (b.takeWhile (· == 0)).length 48 ++ (digits 32 b.toNat).map symbol

/-- The number that figures spell, continued from those before them, or the first foreign character. -/
def valueFrom (n : Nat) : Text → Except CodePoint Nat
  | [] => .ok n
  | c :: rest =>
    match value? c with
    | some d => valueFrom (n * 32 + d.val) rest
    | none => .error c

/-- The bytes of a text of figures. -/
def decode (t : Text) : Except Fault Bytes :=
  let figures := normalize t
  match valueFrom 0 figures with
  | .ok n => .ok (Bytes.zeros (figures.takeWhile (· == 48)).length ++ (digits 256 n).map UInt8.ofNat)
  | .error c => .error (.address (some t) (.badCharacter c))

end StacksWallet.C32
