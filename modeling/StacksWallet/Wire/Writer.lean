import StacksWallet.Fault.Basic
import StacksWallet.Number.Bounded

/-!
# Writing bytes

Numbers of fixed width and byte strings after their length. These writers take plain data and check them;
parts whose types already keep their numbers in range are written with `bigEndian` directly.
-/

namespace StacksWallet.Wire

/-- The integer that a datum is, truth values included. -/
def whole? : Datum → Option Int
  | .integer n => some n
  | .flag b => some (if b then 1 else 0)
  | _ => none

/-- Whether a double-precision number lies between zero and a largest number. -/
def realUpTo (largest : Nat) (x : Binary64) : Bool :=
  if x.isNaN || x.isInfinite || (x.isNegative && !x.isZero) then false
  else x.ratio.1 ≤ largest * x.ratio.2

/-- A number of one byte. -/
def u8 (d : Datum) : Except Fault Bytes :=
  match whole? d with
  | none => .error (.packing .notAnInteger)
  | some n =>
    if 0 ≤ n && n < 256 then .ok (bigEndian 1 n.toNat)
    else if -0x8000_0000_0000_0000 ≤ n && n < 0x8000_0000_0000_0000 then .error (.packing .byteRange)
    else .error (.packing .wordRange)

/-- A number of `width` bytes, refused by its value before it is refused by its kind. -/
def word (width : Nat) (flaw : Datum → ArgumentFlaw) (d : Datum) : Except Fault Bytes :=
  match d with
  | .real x =>
    if realUpTo (wordCount width - 1) x then .error (.packing .notAnInteger) else .error (.argument (flaw d))
  | _ =>
    match whole? d with
    | none => .error .mistyped
    | some n =>
      if 0 ≤ n && n < wordCount width then .ok (bigEndian width n.toNat)
      else .error (.showing d (.argument (flaw d)))

/-- A number of four bytes. -/
def u32 (d : Datum) : Except Fault Bytes := word 4 .u32Range d

/-- A number of eight bytes. -/
def u64 (d : Datum) : Except Fault Bytes := word 8 .u64Range d

/-- A number of sixteen bytes. -/
def u128 (d : Datum) : Except Fault Bytes :=
  match whole? d with
  | none => .error .inapplicable
  | some n =>
    if n < 0 then .error (.overflow .negative)
    else if n < wordCount 16 then .ok (bigEndian 16 n.toNat)
    else .error (.overflow .tooBig)

/-- A signed number of sixteen bytes. -/
def i128 (d : Datum) : Except Fault Bytes :=
  match whole? d with
  | none => .error .inapplicable
  | some n =>
    match Int128.ofInt? n with
    | some k => .ok (bigEndianSigned 16 k.val)
    | none => .error (.overflow .tooBig)

/-- Bytes after their length in one byte. -/
def shortBytes (b : Bytes) : Except Fault Bytes :=
  if b.length < 256 then .ok (bigEndian 1 b.length ++ b) else .error (.argument (.shortPrefix b.length))

/-- A length or count of four bytes. -/
def size (n : Nat) : Except Fault Bytes :=
  if n < wordCount 4 then .ok (bigEndian 4 n) else .error (.argument (.u32Range (.integer n)))

/-- Bytes after their length in four bytes. -/
def longBytes (b : Bytes) : Except Fault Bytes := (size b.length).map (· ++ b)

end StacksWallet.Wire
