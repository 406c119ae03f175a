import StacksWallet.Bytes.Basic

/-!
# The curve secp256k1

Points of `y² = x³ + 7` over a prime field, with the arithmetic that signatures need. Sums are computed in
Jacobian coordinates, where `(x, y, z)` stands for `(x / z², y / z³)` and `z = 0` for the point at infinity,
so that one inversion suffices at the end.
-/

namespace StacksWallet.Secp256k1

/-- The size of the field, a prime: 2²⁵⁶ − 2³² − 977. -/
def fieldSize : Nat := 0xFFFFFFFFFFFFFFFFFFFFFFFFFFFFFFFFFFFFFFFFFFFFFFFFFFFFFFFEFFFFFC2F

/-- The number of points, which is prime. -/
def order : Nat := 0xFFFFFFFFFFFFFFFFFFFFFFFFFFFFFFFEBAAEDCE6AF48A03BBFD25E8CD0364141

/-- The power of a number to `exponent`, modulo `m`, for exponents of at most `bits` bits. -/
def powerMod (m : Nat) : Nat → Nat → Nat → Nat
  | 0, _, _ => 1 % m
  | bits + 1, base, exponent =>
    let rest := powerMod m bits (base * base % m) (exponent / 2)
    if exponent % 2 = 1 then rest * base % m else rest

/-- The inverse modulo a prime. -/
def inverseMod (m a : Nat) : Nat := powerMod m 256 (a % m) (m - 2)

/-- The difference of residues. -/
def subMod (m a b : Nat) : Nat := (a + (m - b % m)) % m

/-- A point of the curve in affine coordinates. -/
structure Point where
  /-- The abscissa. -/
  x : Nat
  /-- The ordinate. -/
  y : Nat
deriving DecidableEq

/-- A point in Jacobian coordinates. -/
structure Jacobian where
  /-- The abscissa times the square of `z`. -/
  x : Nat
  /-- The ordinate times the cube of `z`. -/
  y : Nat
  /-- The denominator, zero at infinity. -/
  z : Nat

/-- The generator of the group. -/
def generator : Point :=
  ⟨0x79BE667EF9DCBBAC55A06295CE870B07029BFCDB2DCE28D959F2815B16F81798,
    0x483ADA7726A3C4655DA4FBFC0E1108A8FD17B448A68554199C47D08FFB10D4B8⟩

/-- Whether coordinates in the field satisfy the equation of the curve. -/
def Point.isOnCurve (p : Point) : Bool :=
  p.x < fieldSize && p.y < fieldSize && p.y * p.y % fieldSize == (p.x * p.x * p.x + 7) % fieldSize

/-- The point with abscissa `x` and an ordinate of the given parity, if there is one. -/
def Point.lift? (x : Nat) (odd : Bool) : Option Point :=
  if fieldSize ≤ x then none
  else
    let root := powerMod fieldSize 256 ((x * x * x + 7) % fieldSize) ((fieldSize + 1) / 4)
    let y := if (root % 2 == 1) == odd then root else fieldSize - root
    let p := Point.mk x y
    if p.isOnCurve then some p else none

namespace Jacobian

/-- The point at infinity. -/
def infinity : Jacobian := ⟨1, 1, 0⟩

/-- A point as Jacobian coordinates. -/
def ofPoint (p : Point) : Jacobian := ⟨p.x, p.y, 1⟩

/-- Twice a point. -/
def double (p : Jacobian) : Jacobian :=
  if p.z = 0 || p.y = 0 then infinity
  else
    let m := fieldSize
    let yy := p.y * p.y % m
    let s := 4 * p.x * yy % m
    let slope := 3 * p.x * p.x % m
    let x := subMod m (slope * slope) (2 * s)
    ⟨x, subMod m (slope * subMod m s x) (8 * yy * yy), 2 * p.y * p.z % m⟩

/-- The sum of two points. -/
def add (p q : Jacobian) : Jacobian :=
  if p.z = 0 then q
  else if q.z = 0 then p
  else
    let m := fieldSize
    let pzz := p.z * p.z % m
    let qzz := q.z * q.z % m
    let u := p.x * qzz % m
    let s := p.y * qzz * q.z % m
    let h := subMod m (q.x * pzz) u
    let r := subMod m (q.y * pzz * p.z) s
    if h = 0 then (if r = 0 then double p else infinity)
    else
      let hh := h * h % m
      let hhh := hh * h % m
      let v := u * hh % m
      let x := subMod m (r * r) (hhh + 2 * v)
      ⟨x, subMod m (r * subMod m v x) (s * hhh), h * p.z * q.z % m⟩

/-- The multiple of a point by a number of at most `bits` bits. -/
def multiple (p : Jacobian) : Nat → Nat → Jacobian
  | 0, _ => infinity
  | bits + 1, k =>
    let rest := multiple (double p) bits (k / 2)
    if k % 2 = 1 then add p rest else rest

/-- The affine point, if it is not at infinity. -/
def toPoint? (p : Jacobian) : Option Point :=
  if p.z = 0 then none
  else
    let inverse := inverseMod fieldSize p.z
    let square := inverse * inverse % fieldSize
    some ⟨p.x * square % fieldSize, p.y * square * inverse % fieldSize⟩

end Jacobian

/-- The multiple of a point by a scalar. -/
def Point.times (p : Point) (k : Nat) : Jacobian := (Jacobian.ofPoint p).multiple 256 k

namespace Point

/-- The 33-byte form: the parity of the ordinate, and the abscissa. -/
def compressed (p : Point) : Bytes := (if p.y % 2 = 1 then 0x03 else 0x02) :: bigEndian 32 p.x

/-- Read a serialized point: compressed, uncompressed, or uncompressed with the parity of its ordinate. -/
def ofBytes? : Bytes → Option Point
  | [] => none
  | form :: coordinates =>
    let x := Bytes.toNat (coordinates.take 32)
    if coordinates.length = 32 then
      if form = 0x02 || form = 0x03 then lift? x (form == 0x03) else none
    else if coordinates.length = 64 then
      let p := Point.mk x (Bytes.toNat (coordinates.drop 32))
      let fits := form == 0x04 || (form == 0x06 && p.y % 2 == 0) || (form == 0x07 && p.y % 2 == 1)
      if fits && p.isOnCurve then some p else none
    else none

end Point

end StacksWallet.Secp256k1
