import StacksWallet.Bytes.Hex
import StacksWallet.Number.Digits

/-!
# Hosts

A host is a name, an address of four numbers between points, or an address of eight groups between colons, of
which one run of zero groups may be left out and the last two may be an address of four numbers. What only looks
like an address of four numbers is no name either. This check is assumed of the library for requests.
-/

namespace StacksWallet.Host

/-- A number of an address: below 256 and without needless zeros. -/
def isOctet (t : Text) : Bool :=
  !t.isEmpty && t.length ≤ 3 && t.all CodePoint.isAsciiDigit && (t.head? != some 48 || t.length == 1) &&
    Numeral.ofFigures t < 256

/-- An address of four numbers. -/
def isFourNumbers (t : Text) : Bool :=
  let parts := t.splitOn 46
  parts.length == 4 && parts.all isOctet

/-- Where a text may stand after another character in a sequence of four runs of digits with any character
between two runs: how many runs are still to come, and whether the character ended in a run. -/
def runsAfter (c : CodePoint) (states : List (Nat × Bool)) : List (Nat × Bool) :=
  (states.flatMap fun (left, inRun) =>
    (if c.isAsciiDigit then [(left, true)] else []) ++ (if inRun && 0 < left then [(left - 1, false)] else [])).eraseDups

/-- Whether a text is a sequence of four runs of digits with any character between two runs. -/
def looksLikeNumbers (t : Text) : Bool :=
  (t.foldl (fun states c => runsAfter c states) [(3, false)]).contains (0, true)

/-- A group of an address: at most four hexadecimal figures. -/
def isGroup (t : Text) : Bool := !t.isEmpty && t.length ≤ 4 && t.all fun c => (hexValue? c).isSome

/-- The parts between colons, where four numbers at the end count as two groups. -/
def partsOf? (t : Text) : Option (List Text) :=
  let parts := t.splitOn 58
  let last := parts.getLast?.getD []
  if !last.contains 46 then some parts
  else if isFourNumbers last then some (parts.dropLast ++ [[48], [48]])
  else none

/-- Parts on one side of what is left out: groups, or nothing at all. -/
def isSide (parts : List Text) : Bool := parts == [[]] || (!parts.isEmpty && parts.all isGroup)

/-- Parts with an empty one between two sides that have seven groups at most. -/
def isShortened (parts : List Text) : Bool :=
  let first := (parts.drop 1).takeWhile (!·.isEmpty)
  let left := parts.take 1 ++ first
  let right := parts.drop (left.length + 1)
  isSide left && isSide right && left.countP (!·.isEmpty) + right.countP (!·.isEmpty) ≤ 7

/-- An address of eight groups. -/
def isEightGroups (t : Text) : Bool :=
  match partsOf? t with
  | some parts => (parts.length == 8 && parts.all isGroup) || isShortened parts
  | none => false

/-- An address of eight groups, perhaps with the name of a zone after a percent sign. -/
def isZonedAddress (t : Text) : Bool :=
  match Text.cut? "%" t with
  | some (address, zone) => !zone.isEmpty && !zone.contains 37 && isEightGroups address
  | none => isEightGroups t

/-- What a text has between brackets at its two ends. -/
def bracketed? (t : Text) : Option Text :=
  if t.head? = some 91 && t.getLast? = some 93 then some (t.drop 1).dropLast else none

end StacksWallet.Host
