/-!
# Text as code points

Addresses, names and error messages are read and written as lists of code points. A code point may be a
surrogate: such code points arrive in escaped input, are refused by some operations, and must be shown by
others, so `String`, which cannot hold them, does not suffice.
-/

namespace StacksWallet

/-- A code point: any number below `0x110000`, surrogates included. -/
abbrev CodePoint := Fin 0x110000

/-- Zero is a code point, so that every number literal stands for one. -/
instance CodePoint.neZero : @NeZero Nat Zero.ofOfNat0 0x110000 := ⟨by decide⟩

/-- A text is a sequence of code points. -/
abbrev Text := List CodePoint

namespace CodePoint

/-- Every character is a code point. -/
def ofChar (c : Char) : CodePoint :=
  ⟨c.toNat, by
    have h : c.val.toNat < 0xd800 ∨ 0xdfff < c.val.toNat ∧ c.val.toNat < 0x110000 := c.valid
    have e : c.toNat = c.val.toNat := rfl
    omega⟩

instance : Coe Char CodePoint := ⟨ofChar⟩

/-- The code point of a number, and U+FFFD for a number that is none. -/
def ofNat (n : Nat) : CodePoint := if h : n < 0x110000 then ⟨n, h⟩ else 0xFFFD

/-- Surrogates stand for half a character and have no UTF-8 form. -/
def isSurrogate (c : CodePoint) : Bool := 0xD800 ≤ c.val && c.val ≤ 0xDFFF

/-- The first 128 code points. -/
def isAscii (c : CodePoint) : Bool := c.val < 128

/-- The ten digits `0` to `9`. -/
def isAsciiDigit (c : CodePoint) : Bool := 48 ≤ c.val && c.val ≤ 57

/-- An ASCII capital becomes its small letter; everything else stays. -/
def toAsciiLower (c : CodePoint) : CodePoint := if 65 ≤ c.val && c.val ≤ 90 then ofNat (c.val + 32) else c

end CodePoint

namespace Text

/-- The code points of a string, in order. -/
def ofString (s : String) : Text := s.toList.map CodePoint.ofChar

instance : Coe String Text := ⟨ofString⟩

/-- The string of a text, with U+FFFD for each surrogate. -/
def toString (t : Text) : String := String.ofList (t.map fun c => Char.ofNat (if c.isSurrogate then 0xFFFD else c.val))

/-- Whether the text begins with another one. -/
def startsWith (t start : Text) : Bool := start.isPrefixOf t

/-- Whether the text ends with another one. -/
def endsWith (t ending : Text) : Bool := ending.isSuffixOf t

/-- Drop the code points at the end that satisfy `p`. -/
def dropEndWhile (p : CodePoint → Bool) (t : Text) : Text := (t.reverse.dropWhile p).reverse

/-- Drop the code points at both ends that satisfy `p`. -/
def trim (p : CodePoint → Bool) (t : Text) : Text := dropEndWhile p (t.dropWhile p)

/-- What stands before and after the first occurrence of a separator, if it occurs. -/
def cut? (separator : Text) : Text → Option (Text × Text)
  | [] => none
  | c :: rest =>
    if separator.isPrefixOf (c :: rest) then some ([], (c :: rest).drop separator.length)
    else (cut? separator rest).map fun parts => (c :: parts.1, parts.2)

/-- Several texts joined by a separator. -/
def join (separator : Text) : List Text → Text
  | [] => []
  | [t] => t
  | t :: rest => t ++ separator ++ join separator rest

/-- Every character of a small letter `a` to `z` or capital, in small letters. -/
def toAsciiLower (t : Text) : Text := t.map CodePoint.toAsciiLower

end Text

end StacksWallet
