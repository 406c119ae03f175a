import StacksWallet.Bytes.Basic
import StacksWallet.Text.Charset

/-!
# UTF-8

Encoding refuses surrogates and says where the first run of them stands. Decoding goes step by step: a step
takes the bytes of one code point, or names the reason why none begins here together with the length of the
part that is beyond repair, which is the longest beginning of a code point that stands there.
-/

namespace StacksWallet

/-- Why bytes are no UTF-8. -/
inductive Utf8Flaw where
  /-- The byte begins no code point. -/
  | invalidStart
  /-- The byte after the beginning of a code point does not continue it. -/
  | invalidContinuation
  /-- The bytes end inside a code point. -/
  | unexpectedEnd
deriving DecidableEq

/-- The name of a flaw. -/
def Utf8Flaw.reason : Utf8Flaw → String
  | invalidStart => "invalid start byte"
  | invalidContinuation => "invalid continuation byte"
  | unexpectedEnd => "unexpected end of data"

namespace Utf8

/-- The bytes of a code point, by the size of its number. -/
def encodeOne (c : CodePoint) : Bytes :=
  let n := c.val
  if n < 0x80 then [UInt8.ofNat n]
  else if n < 0x800 then [UInt8.ofNat (0xC0 + n / 64), UInt8.ofNat (0x80 + n % 64)]
  else if n < 0x10000 then
    [UInt8.ofNat (0xE0 + n / 4096), UInt8.ofNat (0x80 + n / 64 % 64), UInt8.ofNat (0x80 + n % 64)]
  else
    [UInt8.ofNat (0xF0 + n / 262144), UInt8.ofNat (0x80 + n / 4096 % 64), UInt8.ofNat (0x80 + n / 64 % 64),
      UInt8.ofNat (0x80 + n % 64)]

/-- The UTF-8 form of a text without surrogates. -/
def bytes (t : Text) : Bytes := t.flatMap encodeOne

/-- The UTF-8 form of a text, or the surrogates that have none. -/
def encode (t : Text) : Except UnencodableRun Bytes :=
  match UnencodableRun.find? .utf8 0 t with
  | some run => .error run
  | none => .ok (bytes t)

/-- One step of decoding. -/
inductive Step where
  /-- A code point and the number of its bytes. -/
  | scalar (c : CodePoint) (width : Nat)
  /-- A flaw and the number of bytes that it spoils. -/
  | flaw (f : Utf8Flaw) (width : Nat)

/-- Whether a byte continues a code point. -/
def continues (b : UInt8) : Bool := 0x80 ≤ b && b ≤ 0xBF

/-- Whether a second byte may follow a lead byte: it must not make the number overlong, a surrogate, or too
large. -/
def secondFits (lead second : UInt8) : Bool :=
  continues second &&
    (if lead = 0xE0 then 0xA0 ≤ second
     else if lead = 0xED then second ≤ 0x9F
     else if lead = 0xF0 then 0x90 ≤ second
     else if lead = 0xF4 then second ≤ 0x8F
     else true)

/-- Number of bytes of a code point by its lead byte, zero for a byte that begins none. -/
def widthOf (lead : UInt8) : Nat :=
  if lead < 0x80 then 1
  else if lead < 0xC2 then 0
  else if lead < 0xE0 then 2
  else if lead < 0xF0 then 3
  else if lead < 0xF5 then 4
  else 0

/-- The payload bits of continuation bytes appended to those of a lead byte. -/
def assemble (leadBits : Nat) (rest : Bytes) : CodePoint :=
  CodePoint.ofNat (rest.foldl (fun n b => n * 64 + b.toNat % 64) leadBits)

/-- The step at the front of non-empty bytes. -/
def step (lead : UInt8) (rest : Bytes) : Step :=
  match widthOf lead with
  | 0 => .flaw .invalidStart 1
  | 1 => .scalar (CodePoint.ofNat lead.toNat) 1
  | width =>
    match rest with
    | [] => .flaw .unexpectedEnd 1
    | second :: more =>
      if !secondFits lead second then .flaw .invalidContinuation 1
      else
        let tail := more.take (width - 2)
        let good := tail.takeWhile continues
        if good.length < tail.length then .flaw .invalidContinuation (2 + good.length)
        else if tail.length < width - 2 then .flaw .unexpectedEnd (2 + tail.length)
        else .scalar (assemble (lead.toNat % Nat.pow 2 (7 - width)) (second :: tail)) width

/-- Decode bytes onto the code points already read, the latest first. `skip` bytes belong to a step already
taken. -/
def decodeOnto (done : Text) (skip : Nat) : Bytes → Except Utf8Flaw Text
  | [] => .ok done.reverse
  | b :: rest =>
    match skip with
    | skip + 1 => decodeOnto done skip rest
    | 0 =>
      match step b rest with
      | .scalar c width => decodeOnto (c :: done) (width - 1) rest
      | .flaw f _ => .error f

/-- The text that bytes spell, or the first flaw. -/
def decode (b : Bytes) : Except Utf8Flaw Text := decodeOnto [] 0 b

/-- Decode leniently onto the code points already read: each part beyond repair becomes one U+FFFD. -/
def decodeLenientOnto (done : Text) (skip : Nat) : Bytes → Text
  | [] => done.reverse
  | b :: rest =>
    match skip with
    | skip + 1 => decodeLenientOnto done skip rest
    | 0 =>
      match step b rest with
      | .scalar c width => decodeLenientOnto (c :: done) (width - 1) rest
      | .flaw _ width => decodeLenientOnto (0xFFFD :: done) (width - 1) rest

/-- The text that bytes spell, with U+FFFD for each part beyond repair. -/
def decodeLenient (b : Bytes) : Text := decodeLenientOnto [] 0 b

end Utf8

end StacksWallet
