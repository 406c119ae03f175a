import StacksWallet.Fault.Basic

/-!
# Numbers and bytes from data

Some arguments are brought to a number or to bytes before they are looked at: numbers lose their fraction,
numerals are read, and texts are taken as hexadecimal. Others are only compared with zero.
-/

namespace StacksWallet

/-- The fault of a caller whose data yield no bytes. -/
def ByteSourceFlaw.toFault : ByteSourceFlaw → Fault
  | hex flaw => .argument (.hex flaw)
  | _ => .mistyped

namespace Datum

/-- Bytes as they are, or a hexadecimal text. -/
def requireBytes (d : Datum) : Except Fault Bytes := d.toBytes.mapError ByteSourceFlaw.toFault

/-- The integer that a numeral spells. -/
def readInt (t : Text) : Except Fault Int :=
  match Numeral.readInt t with
  | .ok n => .ok n
  | .error .notANumeral => .error (.argument (.notAnInteger t))
  | .error (.tooManyDigits count) => .error (.argument (.tooManyDigits count))

/-- The number nearest to what a numeral spells. -/
def readReal (t : Text) : Except Fault Binary64 :=
  match Binary64.read? t with
  | some x => .ok x
  | none => .error (.argument (.notANumber t))

/-- The whole part of a number, or what a numeral spells. -/
def truncate : Datum → Except Fault Int
  | absent => .error .mistyped
  | flag b => .ok (if b then 1 else 0)
  | integer n => .ok n
  | real x =>
    if x.isNaN then .error (.argument .notIntegral)
    else if x.isInfinite then .error (.overflow .infinite)
    else
      let whole : Int := (x.ratio.1 / x.ratio.2 : Nat)
      .ok (if x.isNegative then -whole else whole)
  | text t => readInt t
  | bytes b => readInt (b.map fun x => CodePoint.ofNat x.toNat)

/-- Whether a number is below zero. -/
def isBelowZero : Datum → Except Fault Bool
  | flag _ => .ok false
  | integer n => .ok (n < 0)
  | real x => .ok (x.isNonPositive && !x.isZero)
  | _ => .error .mistyped

/-- Whether a number is zero or below. -/
def isAtMostZero : Datum → Except Fault Bool
  | flag b => .ok !b
  | integer n => .ok (n ≤ 0)
  | real x => .ok x.isNonPositive
  | _ => .error .mistyped

/-- The double-precision number nearest to a number, or to what a numeral spells. -/
def toReal : Datum → Except Fault Binary64
  | flag b => .ok (Binary64.ofInt (if b then 1 else 0))
  | integer n =>
    let x := Binary64.ofInt n
    if x.isInfinite then .error (.overflow .beyondReal) else .ok x
  | real x => .ok x
  | text t => readReal t
  | _ => .error .mistyped

/-- Nothing, false, zero and empty data count as vacant. -/
def isVacant : Datum → Bool
  | absent => true
  | flag b => !b
  | integer n => n == 0
  | real x => x.isZero
  | text t => t.isEmpty
  | bytes b => b.isEmpty

end Datum

end StacksWallet
