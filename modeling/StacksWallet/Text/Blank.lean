import StacksWallet.Text.Basic

/-!
# Blank space

The code points that count as blank at the ends of a text: those of the Unicode property `White_Space`
and the four information separators U+001C to U+001F.
-/

namespace StacksWallet

/-- Code points of the property `White_Space`. -/
def CodePoint.isWhiteSpace (c : CodePoint) : Bool :=
  (9 ≤ c.val && c.val ≤ 13) || c == 0x20 || c == 0x85 || c == 0xA0 || c == 0x1680 ||
    (0x2000 ≤ c.val && c.val ≤ 0x200A) || c == 0x2028 || c == 0x2029 || c == 0x202F || c == 0x205F || c == 0x3000

/-- Blank code points. -/
def CodePoint.isBlank (c : CodePoint) : Bool := c.isWhiteSpace || (0x1C ≤ c.val && c.val ≤ 0x1F)

/-- The blanks of ASCII that separate and surround digits: tab, the line ends, and the space. -/
def CodePoint.isAsciiBlank (c : CodePoint) : Bool := (9 ≤ c.val && c.val ≤ 13) || c == 32

/-- The text without the blanks at its two ends. -/
def Text.strip (t : Text) : Text := t.trim CodePoint.isBlank

end StacksWallet
