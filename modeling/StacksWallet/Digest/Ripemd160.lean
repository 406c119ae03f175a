import StacksWallet.Digest.Padding

/-!
# RIPEMD-160

The outer hash of a public-key hash: two lines of eighty steps on each block of sixty-four bytes, whose
results are combined crosswise. Words and the length are little-endian. The function is the published one, which is
what is assumed of the library that computes it, as it is of the other digests.
-/

namespace StacksWallet.Ripemd160

/-- The five chaining words. -/
structure State where
  /-- First word. -/
  a : UInt32
  /-- Second word. -/
  b : UInt32
  /-- Third word. -/
  c : UInt32
  /-- Fourth word. -/
  d : UInt32
  /-- Fifth word. -/
  e : UInt32
deriving DecidableEq

/-- The chaining words before the first block. -/
def initial : State := ⟨0x67452301, 0xefcdab89, 0x98badcfe, 0x10325476, 0xc3d2e1f0⟩

/-- The words that the left line reads. -/
def leftWords : List Nat :=
  [0, 1, 2, 3, 4, 5, 6, 7, 8, 9, 10, 11, 12, 13, 14, 15,
    7, 4, 13, 1, 10, 6, 15, 3, 12, 0, 9, 5, 2, 14, 11, 8,
    3, 10, 14, 4, 9, 15, 8, 1, 2, 7, 0, 6, 13, 11, 5, 12,
    1, 9, 11, 10, 0, 8, 12, 4, 13, 3, 7, 15, 14, 5, 6, 2,
    4, 0, 5, 9, 7, 12, 2, 10, 14, 1, 3, 8, 11, 6, 15, 13]

/-- The words that the right line reads. -/
def rightWords : List Nat :=
  [5, 14, 7, 0, 9, 2, 11, 4, 13, 6, 15, 8, 1, 10, 3, 12,
    6, 11, 3, 7, 0, 13, 5, 10, 14, 15, 8, 12, 4, 9, 1, 2,
    15, 5, 1, 3, 7, 14, 6, 9, 11, 8, 12, 2, 10, 0, 4, 13,
    8, 6, 4, 1, 3, 11, 15, 0, 5, 12, 2, 13, 9, 7, 10, 14,
    12, 15, 10, 4, 1, 5, 8, 7, 6, 2, 13, 14, 0, 3, 9, 11]

/-- The rotations of the left line. -/
def leftShifts : List UInt32 :=
  [11, 14, 15, 12, 5, 8, 7, 9, 11, 13, 14, 15, 6, 7, 9, 8,
    7, 6, 8, 13, 11, 9, 7, 15, 7, 12, 15, 9, 11, 7, 13, 12,
    11, 13, 6, 7, 14, 9, 13, 15, 14, 8, 13, 6, 5, 12, 7, 5,
    11, 12, 14, 15, 14, 15, 9, 8, 9, 14, 5, 6, 8, 6, 5, 12,
    9, 15, 5, 11, 6, 8, 13, 12, 5, 12, 13, 14, 11, 8, 5, 6]

/-- The rotations of the right line. -/
def rightShifts : List UInt32 :=
  [8, 9, 9, 11, 13, 15, 15, 5, 7, 7, 8, 11, 14, 14, 12, 6,
    9, 13, 15, 7, 12, 8, 9, 11, 7, 7, 12, 7, 6, 15, 13, 11,
    9, 7, 15, 11, 8, 6, 6, 14, 12, 13, 5, 14, 13, 13, 7, 5,
    15, 5, 8, 11, 14, 14, 6, 14, 6, 9, 12, 9, 12, 5, 15, 8,
    8, 5, 12, 9, 12, 5, 14, 6, 8, 13, 6, 5, 15, 13, 11, 11]

/-- The constants of the left line, one for each sixteen steps. -/
def leftConstants : List UInt32 := [0, 0x5a827999, 0x6ed9eba1, 0x8f1bbcdc, 0xa953fd4e]

/-- The constants of the right line. -/
def rightConstants : List UInt32 := [0x50a28be6, 0x5c4dd124, 0x6d703ef3, 0x7a6d76e9, 0]

/-- The five mixing functions. -/
def mix (which : Nat) (x y z : UInt32) : UInt32 :=
  match which with
  | 0 => x ^^^ y ^^^ z
  | 1 => (x &&& y) ||| (~~~x &&& z)
  | 2 => (x ||| ~~~y) ^^^ z
  | 3 => (x &&& z) ||| (y &&& ~~~z)
  | _ => x ^^^ (y ||| ~~~z)

/-- Rotate a word to the left. -/
def rotate (x n : UInt32) : UInt32 := (x <<< n) ||| (x >>> (32 - n))

/-- One step with its mixing function, the sum of its word and constant, and its rotation. -/
def step (s : State) (which : Nat) (x shift : UInt32) : State :=
  ⟨s.e, rotate (s.a + mix which s.b s.c s.d + x) shift + s.e, s.b, rotate s.c 10, s.d⟩

/-- Run the steps of a line from a step number on. -/
def line (words : List UInt32) (constants : List UInt32) (function : Nat → Nat) :
    Nat → State → List Nat → List UInt32 → State
  | _, s, [], _ => s
  | _, s, _, [] => s
  | number, s, w :: ws, shift :: shifts =>
    let group := number / 16
    line words constants function (number + 1)
      (step s (function group) (words.getD w 0 + constants.getD group 0) shift) ws shifts

/-- The little-endian words of a block. -/
def blockWords (block : Bytes) : List UInt32 :=
  (chunks 4 16 block).map fun w => UInt32.ofNat (Bytes.toNat w.reverse)

/-- Chain one block. -/
def compress (s : State) (block : Bytes) : State :=
  let words := blockWords block
  let l := line words leftConstants id 0 s leftWords leftShifts
  let r := line words rightConstants (4 - ·) 0 s rightWords rightShifts
  ⟨s.b + l.c + r.d, s.c + l.d + r.e, s.d + l.e + r.a, s.e + l.a + r.b, s.a + l.b + r.c⟩

/-- The bytes of the chaining words. -/
def State.bytes (s : State) : Bytes :=
  [s.a, s.b, s.c, s.d, s.e].flatMap fun w => (bigEndian 4 w.toNat).reverse

/-- The 20-byte hash of a message. -/
def digest (message : Bytes) : Bytes :=
  let padded := pad 64 (bigEndian 8 (message.length * 8)).reverse message
  (foldBlocks 64 compress initial (padded.length / 64) padded).bytes

/-- A hash has twenty bytes. -/
@[simp] theorem digest_length (message : Bytes) : (digest message).length = 20 := by
  simp [digest, State.bytes]

end StacksWallet.Ripemd160
