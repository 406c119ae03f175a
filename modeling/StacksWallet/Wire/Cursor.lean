import StacksWallet.Fault.Basic

/-!
# Reading bytes

A cursor goes forward over a fixed buffer. A read takes as many bytes as it asks for or fails at the cursor's
position, and a failing read leaves the cursor where the last successful step put it. Readers are state
transformers on a cursor, so that the rest of a run sees where a failed reader stopped.

A cursor that starts before the buffer counts from the buffer's end, as slices do, and may then receive fewer
bytes than it asked for.
-/

namespace StacksWallet

/-- A position in a buffer. -/
structure Cursor where
  /-- The bytes. -/
  buffer : Array UInt8
  /-- The index of the next byte. -/
  position : Int

namespace Cursor

/-- The cursor over some bytes that starts at an offset. -/
def ofBytes (b : Bytes) (offset : Int) : Cursor := ⟨b.toArray, offset⟩

/-- The number of bytes from the position to the end. -/
def remaining (c : Cursor) : Int := c.buffer.size - c.position

/-- Whether no byte is left. -/
def atEnd (c : Cursor) : Bool := c.buffer.size ≤ c.position

/-- The index in the buffer that a position means: negative ones count from the end. -/
def index (c : Cursor) (position : Int) : Nat :=
  if position < 0 then (position + c.buffer.size).toNat else min position.toNat c.buffer.size

/-- The bytes from one position to another. -/
def slice (c : Cursor) (first last : Int) : Bytes := (c.buffer.extract (c.index first) (c.index last)).toList

end Cursor

/-- A computation that reads from a cursor. -/
abbrev Reader := ExceptT Fault (StateM Cursor)

namespace Reader

/-- Fail because of the bytes at an offset. -/
def malformed {α : Type} (offset : Int) (flaw : WireFlaw) : Reader α := throw (.malformed (some offset) flaw)

/-- The position of the next byte. -/
def position : Reader Int := return (← get).position

/-- The number of bytes that are left. -/
def remaining : Reader Int := return (← get).remaining

/-- The next `n` bytes. -/
def take (n : Int) : Reader Bytes := do
  let c ← get
  if n < 0 || c.remaining < n then
    throw (.showing (.integer n) (.showing (.integer c.remaining)
      (.malformed (some c.position) (.truncated n c.remaining))))
  else
    set { c with position := c.position + n }
    return c.slice c.position (c.position + n)

/-- The next byte, as a number. -/
def u8 : Reader Nat := do
  match ← take 1 with
  | b :: _ => return b.toNat
  | [] => throw .emptyRead

/-- A number of exactly `width` bytes. -/
def word (width : Nat) : Reader Nat := do
  let b ← take width
  if b.length = width then return b.toNat else throw (.packing (.bufferSize width))

/-- A number of four bytes. -/
def u32 : Reader Nat := word 4

/-- A number of eight bytes. -/
def u64 : Reader Nat := word 8

/-- A number of sixteen bytes. -/
def u128 : Reader Nat := return (← take 16).toNat

/-- A signed number of sixteen bytes. -/
def i128 : Reader Int := return (← take 16).toInt

/-- Bytes after their length in one byte. -/
def shortBytes : Reader Bytes := do take (← u8)

/-- Bytes after their length in four bytes. A length that is too large is reported where the length stands. -/
def longBytes : Reader Bytes := do
  let start ← position
  let n ← u32
  let left ← remaining
  if left < n then malformed start (.lengthBeyondEnd n left) else take n

/-- A number of elements. With the guard it may not exceed the number of bytes that are left: every element
takes at least one. -/
def count (guarded : Bool) (what : CountKind) : Reader Nat := do
  let n ← u32
  let left ← remaining
  if guarded && left < n then malformed (← position) (.countBeyondEnd what n left) else return n

/-- Read `n` elements in order onto those already read, the latest first. -/
def repeatOnto {α : Type} (one : Reader α) (done : List α) : Nat → Reader (List α)
  | 0 => return done.reverse
  | n + 1 => do
    let a ← one
    repeatOnto one (a :: done) n

/-- Read `n` elements in order. -/
def times {α : Type} (one : Reader α) (n : Nat) : Reader (List α) := repeatOnto one [] n

/-- Fail at an offset if a part cannot be made from what was read. -/
def require {α ε : Type} (offset : Int) (wire : ε → WireFlaw) : Except ε α → Reader α
  | .ok a => return a
  | .error flaw => malformed offset (wire flaw)

/-- Read from some bytes at an offset; the result comes with the number of bytes consumed. -/
def decodeAt {α : Type} (reader : Reader α) (b : Bytes) (offset : Int) : Except Fault (α × Int) :=
  match reader.run (Cursor.ofBytes b offset) with
  | (.ok a, c) => .ok (a, c.position - offset)
  | (.error fault, _) => .error fault

end Reader

end StacksWallet
