import StacksWallet.Bytes.Basic
import StacksWallet.Text.Blank
import StacksWallet.Number.Digits

/-!
# Hexadecimal text

Bytes are written as pairs of small hexadecimal figures. A reader takes figures of either case, a leading
`0x`, blanks around the text, and ASCII blanks between the pairs. The length test counts those blanks, so a
text of odd length is refused even where its figures are paired.
-/

namespace StacksWallet

/-- Why a text spells no bytes. -/
inductive HexFlaw where
  /-- The text has an odd number of code points. -/
  | oddLength
  /-- The code point at a position is not the figure that is due there. -/
  | badDigit (position : Nat)
deriving DecidableEq

/-- The value of a hexadecimal figure. -/
def hexValue? (c : CodePoint) : Option Nat :=
  if 48 ≤ c.val && c.val ≤ 57 then some (c.val - 48)
  else if 97 ≤ c.val && c.val ≤ 102 then some (c.val - 87)
  else if 65 ≤ c.val && c.val ≤ 70 then some (c.val - 55)
  else none

namespace Hex

/-- The two figures of a byte. -/
def ofByte (b : UInt8) : Text := [figure (b.toNat / 16), figure (b.toNat % 16)]

/-- Bytes as figures. -/
def plain (b : Bytes) : Text := b.flatMap ofByte

/-- Bytes as figures after `0x`. -/
def prefixed (b : Bytes) : Text := "0x" ++ plain b

/-- Read pairs of figures onto the bytes already read, the latest first; `position` is that of the text's front. -/
def pairsOnto (done : Bytes) (position : Nat) : Text → Except HexFlaw Bytes
  | [] => .ok done.reverse
  | c :: rest =>
    if c.isAsciiBlank then pairsOnto done (position + 1) rest
    else
      match hexValue? c, rest with
      | none, _ => .error (.badDigit position)
      | some _, [] => .error (.badDigit (position + 1))
      | some high, d :: rest' =>
        match hexValue? d with
        | none => .error (.badDigit (position + 1))
        | some low => pairsOnto (UInt8.ofNat (high * 16 + low) :: done) (position + 2) rest'

/-- The bytes of a text of pairs. A code point beyond ASCII is reported before any other flaw. -/
def pairs (t : Text) : Except HexFlaw Bytes :=
  match t.findIdx? fun c => !c.isAscii with
  | some position => .error (.badDigit position)
  | none => pairsOnto [] 0 t

/-- The text after a leading `0x` or `0X`. -/
def afterMark (t : Text) : Text :=
  if t.startsWith "0x" || t.startsWith "0X" then t.drop 2 else t

/-- Read a text as bytes. -/
def read (t : Text) : Except HexFlaw Bytes :=
  let body := afterMark t.strip
  if body.length % 2 = 1 then .error .oddLength else pairs body

end Hex

end StacksWallet
