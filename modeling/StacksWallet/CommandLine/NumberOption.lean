import StacksWallet.Number.Binary64

/-!
# Options that take numbers

A number on the command line is written with the ten ASCII digits, and blanks may surround it. An integer may
have zeros in front and a fraction of zeros behind; any other number may have a fraction and an exponent.
Underscores may stand between other characters, one at a place, and mean nothing.

This is more than the domain takes elsewhere, and not its own decision: the reader of options converts the values, and
these rules are assumed of it. So `1.0` is an integer for an option, and `1_000` is one too, while a digit beyond ASCII
makes wrong usage.
-/

namespace StacksWallet.CommandLine.NumberOption

/-- A text without its underscores, if it has some and each stands between two other characters. -/
def ungroup? (t : Text) : Option Text :=
  if t.contains 95 && t.head? != some 95 && t.getLast? != some 95 && (Text.cut? "__" t).isNone then
    some (t.filter (· != 95))
  else none

/-- A text without a plus sign in front. Two signs are refused. -/
def dropPlus? : Text → Option Text
  | [] => none
  | c :: rest => if c = 43 then if rest.head? = some 45 then none else some rest else some (c :: rest)

/-- A digit from one to nine. -/
def isCountingDigit (c : CodePoint) : Bool := 49 ≤ c.val && c.val ≤ 57

/-- What is left of a numeral after zeros and underscores, the last of which is `latest`. It begins with a digit
that counts, or with `latest` if there is none before the point or the end. -/
def dropZerosAfter? (latest : CodePoint) : Text → Option Text
  | [] => some [latest]
  | c :: rest =>
    if c = 48 || c = 95 then dropZerosAfter? c rest
    else if isCountingDigit c then some (c :: rest)
    else if c = 46 then some (latest :: c :: rest)
    else none

/-- A numeral without needless zeros in front. One with a minus sign stays. -/
def dropZeros? : Text → Option Text
  | [] => none
  | c :: rest =>
    if c = 48 then dropZerosAfter? c rest else if isCountingDigit c || c = 45 then some (c :: rest) else none

/-- A numeral without a fraction of zeros. Any other fraction stays. -/
def dropFraction (t : Text) : Text :=
  match Text.cut? "." t with
  | some (whole, fraction) => if !fraction.isEmpty && fraction.all (· == 48) then whole else t
  | none => t

/-- Whether a numeral, perhaps with a minus sign, has a needless zero in front. -/
def isPadded (t : Text) : Bool :=
  let figures := if t.head? == some 45 then t.drop 1 else t
  figures.head? == some 48 && 1 < figures.length

/-- The integer that an option's value spells. -/
def integer? (t : Text) : Option Int := do
  let body := dropFraction (← dropZeros? (← dropPlus? (t.trim CodePoint.isWhiteSpace)))
  let plain := (ungroup? body).getD body
  if isPadded plain || maxNumeralDigits < plain.length then none else Numeral.plainInt? plain

/-- The number nearest to what an option's value spells. Blanks and underscores do not go together. -/
def real? (t : Text) : Option Binary64 :=
  match Binary64.readPlain? (t.trim CodePoint.isWhiteSpace) with
  | some x => some x
  | none => (ungroup? t).bind Binary64.readPlain?

end StacksWallet.CommandLine.NumberOption
