import StacksWallet.Number.Digits

/-!
# Double-precision numbers

Numbers of the binary64 format, held as their 64 bits. A decimal is read as the nearest such number, a tie
going to the even neighbour, and is written with the fewest digits that read back as the same number. Both
directions are exact arithmetic on natural numbers. Sums and products are those of the format. Powers are too where
they are exact or beyond the format in any case, which is all that is proved of them; the others are left to the
platform, as their last digit is.
-/

namespace StacksWallet

/-- A number of the binary64 format. -/
structure Binary64 where
  /-- Sign, eleven bits of exponent, fifty-two bits of fraction. -/
  bits : UInt64
deriving DecidableEq

namespace Binary64

/-- The least significand of a normal number, whose leading bit is not stored. -/
def hiddenBit : Nat := 0x10_0000_0000_0000

/-- The bits of an infinity, without its sign. -/
def infinityBits : Nat := 0x7FF0_0000_0000_0000

/-- A number from its sign and the other 63 bits. -/
def ofMagnitude (negative : Bool) (magnitude : Nat) : Binary64 :=
  ⟨UInt64.ofNat (if negative then 0x8000_0000_0000_0000 + magnitude else magnitude)⟩

/-- The bits other than the sign. -/
def magnitude (x : Binary64) : Nat := x.bits.toNat % 0x8000_0000_0000_0000

/-- Whether the sign is set. -/
def isNegative (x : Binary64) : Bool := 0x8000_0000_0000_0000 ≤ x.bits.toNat

/-- Neither a number nor an infinity. -/
def isNaN (x : Binary64) : Bool := infinityBits < x.magnitude

/-- One of the two infinities. -/
def isInfinite (x : Binary64) : Bool := x.magnitude == infinityBits

/-- Zero of either sign. -/
def isZero (x : Binary64) : Bool := x.magnitude == 0

/-- Whether the number is zero or below; no NaN is. -/
def isNonPositive (x : Binary64) : Bool := x.isZero || (x.isNegative && !x.isNaN)

/-- The quotient rounded to the nearest natural number, a half to the even neighbour. -/
def roundDiv (num den : Nat) : Nat :=
  let quotient := num / den
  let twice := 2 * (num % den)
  if den < twice || (twice == den && quotient % 2 == 1) then quotient + 1 else quotient

/-- `num / den` in units of `2 ^ exponent`, as a fraction. -/
def scale (num den : Nat) (exponent : Int) : Nat × Nat :=
  if 0 ≤ exponent then (num, den * Nat.pow 2 exponent.toNat) else (num * Nat.pow 2 (-exponent).toNat, den)

/-- The magnitude bits nearest to `num / den`. -/
def nearestMagnitude (num den : Nat) : Nat :=
  if num = 0 then 0
  else
    let guess : Int := max ((num.log2 : Int) - den.log2 - 52) (-1074)
    let rough := scale num den guess
    let exponent := if -1074 < guess && rough.1 / rough.2 < hiddenBit then guess - 1 else guess
    let parts := scale num den exponent
    min ((exponent + 1074).toNat * hiddenBit + roundDiv parts.1 parts.2) infinityBits

/-- The number nearest to a fraction. -/
def ofRatio (negative : Bool) (num den : Nat) : Binary64 := ofMagnitude negative (nearestMagnitude num den)

/-- The number nearest to an integer. -/
def ofInt (n : Int) : Binary64 := ofRatio (n < 0) n.natAbs 1

/-- The number nearest to `significand * 10 ^ exponent`. Exponents far outside the format are decided without
raising ten to them. -/
def ofDecimal (negative : Bool) (significand : Nat) (exponent : Int) : Binary64 :=
  let top := exponent + (digits 10 significand).length
  if significand = 0 || top < -400 then ofMagnitude negative 0
  else if 400 < top then ofMagnitude negative infinityBits
  else if 0 ≤ exponent then ofRatio negative (significand * Nat.pow 10 exponent.toNat) 1
  else ofRatio negative significand (Nat.pow 10 (-exponent).toNat)

/-- The magnitude of a finite number as `m * 2 ^ e`. -/
def significand (x : Binary64) : Nat × Int :=
  let field : Nat := x.magnitude / hiddenBit
  let fraction : Nat := x.magnitude % hiddenBit
  if field = 0 then (fraction, -1074) else (hiddenBit + fraction, (field : Int) - 1075)

/-- The magnitude of a finite number as a fraction. -/
def ratio (x : Binary64) : Nat × Nat :=
  let (m, e) := x.significand
  if 0 ≤ e then (m * Nat.pow 2 e.toNat, 1) else (m, Nat.pow 2 (-e).toNat)

/-- The least `p` with `num / den < 10 ^ p`. -/
def decimalPoint (num den : Nat) : Int :=
  if den ≤ num then Int.ofNat (digits 10 (num / den)).length
  else 1 - Int.ofNat (digits 10 ((den - 1) / num)).length

/-- The two neighbours of `num / den` on the grid of multiples of `10 ^ exponent`, with the nearer one first. -/
def gridNeighbours (num den : Nat) (exponent : Int) : Nat × Nat :=
  let (n, d) :=
    if 0 ≤ exponent then (num, den * Nat.pow 10 exponent.toNat) else (num * Nat.pow 10 (-exponent).toNat, den)
  let below := n / d
  if roundDiv n d = below then (below, below + 1) else (below + 1, below)

/-- The shortest decimal on grids of `digitCount` digits and more that reads back as `x`. -/
def shortestFrom (x : Binary64) (num den : Nat) (point : Int) : Nat → Nat → Nat × Int
  | 0, digitCount => ((gridNeighbours num den (point - digitCount)).1, point - digitCount)
  | steps + 1, digitCount =>
    let exponent := point - digitCount
    let (nearer, farther) := gridNeighbours num den exponent
    if ofDecimal x.isNegative nearer exponent = x then (nearer, exponent)
    else if ofDecimal x.isNegative farther exponent = x then (farther, exponent)
    else shortestFrom x num den point steps (digitCount + 1)

/-- The decimal with the fewest digits that reads back as a finite number, as digits and the place of the point. -/
def shortest (x : Binary64) : List Nat × Int :=
  let (num, den) := x.ratio
  if num = 0 then ([0], 1)
  else
    let (m, exponent) := shortestFrom x num den (decimalPoint num den) 16 1
    let figures := digits 10 m
    ((figures.reverse.dropWhile (· == 0)).reverse, exponent + figures.length)

/-- Decimal points up to sixteen places to the right of the first digit and three to its left are written
positionally, others with an exponent of at least two digits. -/
def display (x : Binary64) : Text :=
  let sign : Text := if x.isNegative then "-" else ""
  if x.isNaN then "nan"
  else if x.isInfinite then sign ++ "inf"
  else
    let (ds, point) := x.shortest
    let figures := ds.map figure
    if -4 < point && point ≤ 16 then
      if point ≤ 0 then sign ++ "0." ++ List.replicate (-point).toNat (figure 0) ++ figures
      else
        let whole := figures.take point.toNat ++ List.replicate (point.toNat - figures.length) (figure 0)
        let part := figures.drop point.toNat
        sign ++ whole ++ "." ++ (if part.isEmpty then [figure 0] else part)
    else
      let e := point - 1
      let exponent := Text.ofNat e.natAbs
      sign ++ figures.take 1 ++ (if 1 < figures.length then "." ++ figures.drop 1 else []) ++ "e" ++
        (if e < 0 then "-" else "+") ++ List.replicate (2 - exponent.length) (figure 0) ++ exponent

/-- A decimal fraction without a sign: figures, perhaps a point and figures, perhaps an exponent. -/
def readUnsigned (negative : Bool) (t : Text) : Option Binary64 :=
  let whole := t.takeWhile CodePoint.isAsciiDigit
  let afterWhole := t.dropWhile CodePoint.isAsciiDigit
  let (part, afterPart) :=
    match afterWhole with
    | c :: rest =>
      if c = 46 then (rest.takeWhile CodePoint.isAsciiDigit, rest.dropWhile CodePoint.isAsciiDigit)
      else ([], afterWhole)
    | [] => ([], [])
  if whole.isEmpty && part.isEmpty then none
  else
    let value := fun (e : Int) => ofDecimal negative (Numeral.ofFigures (whole ++ part)) (e - part.length)
    match afterPart with
    | [] => some (value 0)
    | c :: rest =>
      let (down, figures) := Numeral.splitSign rest
      if (c = 69 || c = 101) && !figures.isEmpty && figures.all CodePoint.isAsciiDigit then
        let e : Int := Numeral.ofFigures figures
        some (value (if down then -e else e))
      else none

/-- Read a decimal fraction with an optional exponent, or a name of an infinity or NaN, in ASCII. -/
def readPlain? (t : Text) : Option Binary64 :=
  let (negative, unsigned) := Numeral.splitSign t
  let name := unsigned.toAsciiLower
  if name = Text.ofString "inf" || name = Text.ofString "infinity" then some (ofMagnitude negative infinityBits)
  else if name = Text.ofString "nan" then some (ofMagnitude negative 0x7FF8000000000000)
  else readUnsigned negative unsigned

/-- Read a numeral, with its blanks and underscores and in the digits of any script. -/
def read? (t : Text) : Option Binary64 :=
  let body := Numeral.core t
  if Numeral.groupsDigits false body then readPlain? (body.filter (· != 95)) else none

/-- The sum, rounded. -/
def add (x y : Binary64) : Binary64 := ⟨(Float.ofBits x.bits + Float.ofBits y.bits).toBits⟩

/-- The product, rounded. -/
def mul (x y : Binary64) : Binary64 := ⟨(Float.ofBits x.bits * Float.ofBits y.bits).toBits⟩

/-- Neither an infinity nor a NaN. -/
def isFinite (x : Binary64) : Bool := x.magnitude < infinityBits

/-- Whether a power is beyond the format by the leading bit of its base alone. -/
def powerOutgrows (x y : Binary64) : Bool :=
  x.isFinite && !x.isNegative && y.isFinite && !y.isNegative &&
    1024 * y.ratio.2 ≤ (x.ratio.1 / x.ratio.2).log2 * y.ratio.1

/-- The power, rounded. One that is exact or beyond the format in any case is given without being computed. -/
def pow (x y : Binary64) : Binary64 :=
  if y.isZero then ofInt 1
  else if y = ofInt 1 then x
  else if x.powerOutgrows y then ofMagnitude false infinityBits
  else ⟨(Float.pow (Float.ofBits x.bits) (Float.ofBits y.bits)).toBits⟩

end Binary64

end StacksWallet
