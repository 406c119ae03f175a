/-!
# Byte strings and big-endian numbers

Every number on the wire has a fixed width and its most significant byte first. Signed numbers are written
in two's complement. A number that does not fit its width wraps around; the checks that keep this from
happening stand with the operations that write.
-/

namespace StacksWallet

/-- A string of bytes. -/
abbrev Bytes := List UInt8

/-- How many numbers `width` bytes can spell. -/
def wordCount (width : Nat) : Nat := Nat.pow 256 width

/-- The `width` low bytes of a number, most significant first. -/
def bigEndian : Nat → Nat → Bytes
  | 0, _ => []
  | width + 1, n => UInt8.ofNat (n / wordCount width) :: bigEndian width n

/-- The `width` low bytes of an integer in two's complement, most significant first. -/
def bigEndianSigned (width : Nat) (n : Int) : Bytes := bigEndian width (n % wordCount width).toNat

namespace Bytes

/-- The number that bytes spell, most significant first. -/
def toNat (b : Bytes) : Nat := b.foldl (fun n byte => n * 256 + byte.toNat) 0

/-- The integer that bytes spell in two's complement. -/
def toInt (b : Bytes) : Int :=
  if wordCount b.length ≤ 2 * b.toNat then (b.toNat : Int) - wordCount b.length else b.toNat

/-- The string of `n` zero bytes. -/
def zeros (n : Nat) : Bytes := List.replicate n 0

@[simp] theorem zeros_length (n : Nat) : (zeros n).length = n := List.length_replicate

end Bytes

@[simp] theorem bigEndian_length (width n : Nat) : (bigEndian width n).length = width := by
  induction width with
  | zero => rfl
  | succ width ih => simp [bigEndian, ih]

@[simp] theorem bigEndianSigned_length (width : Nat) (n : Int) : (bigEndianSigned width n).length = width :=
  bigEndian_length ..

end StacksWallet
