import StacksWallet.Text.DigitClass
import StacksWallet.Text.Blank

/-!
# Positional numerals

Digits of a number in a base, and the decimal numerals that are read from and written to text. A numeral
may use the decimal digits of any script, may have blanks around it, and may group its digits with single
underscores.
-/

namespace StacksWallet

/-- The digits of `n` in front of `rest`, most significant first. -/
def digitsOnto (base n : Nat) (rest : List Nat) : List Nat :=
  if _stop : n = 0 ∨ base < 2 then rest else digitsOnto base (n / base) (n % base :: rest)
termination_by n
decreasing_by exact Nat.div_lt_self (by omega) (by omega)

/-- The digits of `n`, most significant first and without leading zeros; zero has none. -/
def digits (base n : Nat) : List Nat := digitsOnto base n []

/-- The number that a sequence of digits stands for. -/
def ofDigits (base : Nat) (ds : List Nat) : Nat := ds.foldl (fun n d => n * base + d) 0

/-- The figure for a digit below sixteen. -/
def figure (d : Nat) : CodePoint := CodePoint.ofNat (if d < 10 then 48 + d else 87 + d)

namespace Text

/-- The decimal numeral of a natural number. -/
def ofNat (n : Nat) : Text := if n = 0 then [figure 0] else (digits 10 n).map figure

/-- The decimal numeral of an integer. -/
def ofInt : Int → Text
  | .ofNat n => ofNat n
  | .negSucc n => CodePoint.ofChar '-' :: ofNat (n + 1)

/-- The hexadecimal numeral of `n` in small letters, padded with zeros to a width. -/
def hexPadded (width n : Nat) : Text :=
  let figures := (digits 16 n).map figure
  List.replicate (width - figures.length) (figure 0) ++ figures

end Text

/-- Why a text is no integer. -/
inductive IntegerFlaw where
  /-- The text is no numeral. -/
  | notANumeral
  /-- The numeral has more digits than are converted. -/
  | tooManyDigits (count : Nat)

/-- The number of digits of the longest numeral that is converted, in either direction. -/
def maxNumeralDigits : Nat := 4300

namespace Numeral

/-- A code point beyond ASCII stands for its digit value or for a blank; any other is a mark that no numeral has. -/
def normalize (c : CodePoint) : CodePoint :=
  if c.isAscii then c
  else if c.isBlank then 32
  else match c.decimalDigit? with
    | some d => figure d
    | none => CodePoint.ofChar '?'

/-- A numeral's figures, without the blanks around them. -/
def core (t : Text) : Text := Text.trim CodePoint.isAsciiBlank (t.map normalize)

/-- Split a sign off. -/
def splitSign : Text → Bool × Text
  | c :: rest => if c = 45 then (true, rest) else if c = 43 then (false, rest) else (false, c :: rest)
  | [] => (false, [])

/-- Whether every underscore stands between two digits; `afterDigit` says whether a digit comes before the text. -/
def groupsDigits (afterDigit : Bool) : Text → Bool
  | [] => true
  | c :: rest =>
    if c = 95 then afterDigit && rest.head?.any CodePoint.isAsciiDigit && groupsDigits false rest
    else groupsDigits c.isAsciiDigit rest

/-- The number that ASCII figures spell. -/
def ofFigures (t : Text) : Nat := ofDigits 10 (t.map fun c => c.val - 48)

/-- The integer that ASCII figures spell, perhaps after a minus sign. -/
def plainInt? (t : Text) : Option Int :=
  let negative := t.head? == some 45
  let figures := if negative then t.drop 1 else t
  if figures.isEmpty || !figures.all CodePoint.isAsciiDigit then none
  else some (if negative then -(ofFigures figures : Int) else ofFigures figures)

/-- The integer that a numeral spells. -/
def readInt (t : Text) : Except IntegerFlaw Int :=
  let (negative, body) := splitSign (core t)
  let grouped := body.takeWhile fun c => c.isAsciiDigit || c = 95
  let figures := grouped.filter CodePoint.isAsciiDigit
  if figures.isEmpty || !groupsDigits false grouped then .error .notANumeral
  else if maxNumeralDigits < figures.length then .error (.tooManyDigits figures.length)
  else if grouped.length < body.length then .error .notANumeral
  else .ok (if negative then -(ofFigures figures : Int) else ofFigures figures)

end Numeral

end StacksWallet
