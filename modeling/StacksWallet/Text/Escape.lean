import StacksWallet.Text.Basic

/-!
# Terminal escapes

Sequences that a terminal takes as commands, for colours as a rule: the escape character, an opening bracket,
parameters, and a letter. What is printed for a person goes without them.
-/

namespace StacksWallet

/-- An ASCII letter. -/
def CodePoint.isAsciiLetter (c : CodePoint) : Bool := (65 ≤ c.val && c.val ≤ 90) || (97 ≤ c.val && c.val ≤ 122)

/-- The parameters of an escape: digits, semicolons and question marks. -/
def CodePoint.isEscapeParameter (c : CodePoint) : Bool := c.isAsciiDigit || c == 59 || c == 63

namespace Text

/-- The length of the escape with which a text begins, zero if there is none. -/
def escapeLength (t : Text) : Nat :=
  if t.take 2 = [27, 91] then
    let parameters := (t.drop 2).takeWhile CodePoint.isEscapeParameter
    if (t.drop (parameters.length + 2)).head?.any CodePoint.isAsciiLetter then parameters.length + 3 else 0
  else 0

/-- The text after a number of characters, without the escapes in it. -/
def dropEscapes (skipped : Nat) : Text → Text
  | [] => []
  | c :: rest =>
    match skipped with
    | n + 1 => dropEscapes n rest
    | 0 =>
      match escapeLength (c :: rest) with
      | n + 1 => dropEscapes n rest
      | 0 => c :: dropEscapes 0 rest

/-- The text without escapes. -/
def withoutEscapes (t : Text) : Text := dropEscapes 0 t

end Text

end StacksWallet
