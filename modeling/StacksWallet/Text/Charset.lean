import StacksWallet.Text.Basic

/-!
# Character sets

An encoding has bytes for the code points of its character set. A text with other ones cannot be encoded, and
the first run of them is what a message speaks of.
-/

namespace StacksWallet

/-- A character set. -/
inductive Charset where
  /-- The first 128 code points. -/
  | ascii
  /-- All code points but surrogates. -/
  | utf8
deriving DecidableEq

namespace Charset

/-- Whether a code point belongs to the set. -/
def has : Charset → CodePoint → Bool
  | ascii, c => c.isAscii
  | utf8, c => !c.isSurrogate

/-- The set's name. -/
def name : Charset → String
  | ascii => "ascii"
  | utf8 => "utf-8"

/-- Why a code point is not in the set. -/
def reason : Charset → String
  | ascii => "ordinal not in range(128)"
  | utf8 => "surrogates not allowed"

end Charset

/-- A run of code points that a character set does not have. -/
structure UnencodableRun where
  /-- The character set. -/
  charset : Charset
  /-- The first of the code points. -/
  first : CodePoint
  /-- Its position in the text. -/
  position : Nat
  /-- The number of such code points in a row. -/
  count : Nat
deriving DecidableEq

/-- The first run in a text whose first code point stands at `position`. -/
def UnencodableRun.find? (charset : Charset) (position : Nat) : Text → Option UnencodableRun
  | [] => none
  | c :: rest =>
    if charset.has c then find? charset (position + 1) rest
    else some ⟨charset, c, position, 1 + (rest.takeWhile fun d => !charset.has d).length⟩

end StacksWallet
