import StacksWallet.Bytes.Basic
import StacksWallet.Text.Printable
import StacksWallet.Number.Digits

/-!
# Quoted texts and bytes

Messages show a text between apostrophes, or between double quotes if it holds an apostrophe and no double
quote. The enclosing mark, the backslash and everything without a visible form are escaped. Bytes are shown
alike, with every byte beyond printable ASCII escaped.
-/

namespace StacksWallet

/-- The mark that encloses a quotation of `units`. -/
def quotationMark (units : List Nat) : Nat := if units.contains 39 && !units.contains 34 then 34 else 39

/-- The escapes that bytes and texts share. -/
def sharedEscape? (mark n : Nat) : Option Text :=
  if n = mark || n = 92 then some [92, CodePoint.ofNat n]
  else if n = 9 then some "\\t"
  else if n = 10 then some "\\n"
  else if n = 13 then some "\\r"
  else none

/-- A byte-sized escape. -/
def byteEscape (n : Nat) : Text := "\\x" ++ Text.hexPadded 2 n

/-- A code point as its shortest numeric escape. -/
def CodePoint.numericEscape (c : CodePoint) : Text :=
  if c.val ≤ 0xFF then byteEscape c.val
  else if c.val ≤ 0xFFFF then "\\u" ++ Text.hexPadded 4 c.val
  else "\\U" ++ Text.hexPadded 8 c.val

/-- How a quotation shows a code point. -/
def CodePoint.quotedBetween (mark : Nat) (c : CodePoint) : Text :=
  match sharedEscape? mark c.val with
  | some shown => shown
  | none => if c.isPrintable then [c] else c.numericEscape

/-- The text as a message shows it. -/
def Text.quoted (t : Text) : Text :=
  let mark := quotationMark (t.map (·.val))
  [CodePoint.ofNat mark] ++ t.flatMap (CodePoint.quotedBetween mark) ++ [CodePoint.ofNat mark]

/-- How a quotation shows a byte. -/
def byteQuotedBetween (mark : Nat) (b : UInt8) : Text :=
  match sharedEscape? mark b.toNat with
  | some shown => shown
  | none => if 32 ≤ b.toNat && b.toNat < 127 then [CodePoint.ofNat b.toNat] else byteEscape b.toNat

/-- The bytes as a message shows them. -/
def Bytes.quoted (b : Bytes) : Text :=
  let mark := quotationMark (b.map (·.toNat))
  "b" ++ [CodePoint.ofNat mark] ++ b.flatMap (byteQuotedBetween mark) ++ [CodePoint.ofNat mark]

end StacksWallet
