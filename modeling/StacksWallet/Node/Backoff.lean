import StacksWallet.Datum.Coercion

/-!
# Waiting between attempts

Each wait before another attempt is a constant factor longer than the one before, and a random part of a constant is
added to it, so that not all callers come back at once. The numbers are of either kind: integers are multiplied exactly,
and one double-precision operand makes the result double-precision. Nothing keeps a wait from growing beyond all
numbers, or from being negative if one of the constants is.

Not every wait can be waited. A clock says which ones it refuses. It is not the same one at every moment, since time
goes on, and neither is what is drawn by chance.
-/

namespace StacksWallet

/-- A number of either kind. -/
inductive Quantity where
  /-- An integer. -/
  | whole (n : Int)
  /-- A double-precision number. -/
  | real (x : Binary64)
deriving DecidableEq

namespace Quantity

/-- The number that a datum is; truth values count as zero and one. -/
def ofDatum : Datum → Except Fault Quantity
  | .flag b => .ok (whole (if b then 1 else 0))
  | .integer n => .ok (whole n)
  | .real x => .ok (real x)
  | _ => .error .mistyped

/-- The double-precision number nearest to a number. -/
def toReal : Quantity → Except Fault Binary64
  | whole n => (Datum.integer n).toReal
  | real x => .ok x

/-- The power of an integer. Those of one, zero and minus one are known without multiplying. -/
def integerPower (n : Int) (exponent : Nat) : Int :=
  if 1 < n.natAbs || exponent = 0 then Int.pow n exponent
  else if n = -1 && exponent % 2 = 0 then 1
  else n

/-- The power with a natural exponent. A finite number has no infinite power. -/
def power (exponent : Nat) : Quantity → Except Fault Quantity
  | whole n => .ok (whole (integerPower n exponent))
  | real x => do
    let y := x.pow (← (Datum.integer exponent).toReal)
    if y.isInfinite && !x.isInfinite then throw (.overflow .powerRange) else return real y

/-- The product. -/
def times : Quantity → Quantity → Except Fault Quantity
  | whole m, whole n => .ok (whole (m * n))
  | a, b => return real ((← a.toReal).mul (← b.toReal))

end Quantity

/-- A random number from zero to one, one excluded, in parts of `2 ^ 53`. -/
abbrev Chance := Fin 0x20_0000_0000_0000

/-- The number, which the format holds exactly. -/
def Chance.toReal (chance : Chance) : Binary64 := Binary64.ofRatio false chance.val 0x20_0000_0000_0000

/-- The wait after a number of failed attempts, in seconds. -/
def backoffDelay (base factor jitter : Datum) (chance : Chance) (failed : Int) : Except Fault Binary64 := do
  let growth ← (← Quantity.ofDatum factor).power (failed - 1).toNat
  let due ← (← Quantity.ofDatum base).times growth
  let more ← (Quantity.real chance.toReal).times (← Quantity.ofDatum jitter)
  return (← due.toReal).add (← more.toReal)

/-- Why a wait is refused. -/
inductive WaitFlaw where
  /-- It is of no number of seconds. -/
  | notANumber
  /-- It is longer than can be counted. -/
  | beyondRange
  /-- It is negative. -/
  | negative
  /-- It ends at a time that cannot be counted. -/
  | endless
deriving DecidableEq

/-- The fault of a wait that is refused. -/
def WaitFlaw.toFault : WaitFlaw → Fault
  | notANumber => .argument .waitNotANumber
  | beyondRange => .overflow .waitRange
  | negative => .argument .negativeWait
  | endless => .unscheduled

/-- Which waits, in seconds, are refused. -/
abbrev Clock := Binary64 → Option WaitFlaw

namespace Clock

/-- The nanoseconds that a signed word of 64 bits does not count any more. -/
def limit : Nat := 0x8000_0000_0000_0000

/-- The clock of a system on which so many nanoseconds have passed. It counts nanoseconds in a signed word of 64 bits,
rounded away from zero, and it looks at the length of a wait before its sign. -/
def system (now : Nat) : Clock := fun delay =>
  let (num, den) := (delay.mul (Binary64.ofInt 1_000_000_000)).ratio
  let nanoseconds := (num + den - 1) / den
  if delay.isNaN then some .notANumber
  else if limit < nanoseconds || (nanoseconds == limit && !delay.isNegative) then some .beyondRange
  else if delay.isNegative && !delay.isZero then some .negative
  else if limit ≤ now + nanoseconds then some .endless
  else none

/-- A wait is allowed unless the clock refuses it. -/
def allow (clock : Clock) (delay : Binary64) : Except Fault Unit :=
  match clock delay with
  | some flaw => .error flaw.toFault
  | none => .ok ()

end Clock

/-- What is found when a wait is due. -/
structure Moment where
  /-- What is drawn. -/
  chance : Chance
  /-- By what the wait is counted. -/
  clock : Clock

/-- A moment at which nothing is drawn, on a system that has just started. -/
def Moment.first : Moment := ⟨⟨0, by decide⟩, .system 0⟩

end StacksWallet
