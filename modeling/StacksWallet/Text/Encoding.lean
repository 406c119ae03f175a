import StacksWallet.Text.Utf8

/-!
# Encodings of JSON documents

A document comes in UTF-8, UTF-16 or UTF-32. A byte order mark names the encoding; without one, the zero
bytes among the first four tell it, since a document begins with two ASCII characters. Surrogates are let
through in every encoding.
-/

namespace StacksWallet

/-- An encoding of code points as bytes. -/
inductive Encoding where
  /-- One to four bytes for each code point. -/
  | utf8
  /-- Units of two bytes. -/
  | utf16 (littleEndian : Bool)
  /-- Units of four bytes. -/
  | utf32 (littleEndian : Bool)
deriving DecidableEq

namespace Encoding

/-- Byte order marks with their encodings. A mark that begins another one comes after it. -/
def marks : List (Bytes × Encoding) :=
  [([0x00, 0x00, 0xFE, 0xFF], utf32 false), ([0xFF, 0xFE, 0x00, 0x00], utf32 true),
    ([0xFE, 0xFF], utf16 false), ([0xFF, 0xFE], utf16 true), ([0xEF, 0xBB, 0xBF], utf8)]

/-- The encoding of a document without a mark. -/
def ofZeros : Bytes → Encoding
  | a :: b :: c :: d :: _ =>
    if a = 0 then (if b = 0 then utf32 false else utf16 false)
    else if b = 0 then (if c = 0 && d = 0 then utf32 true else utf16 true)
    else utf8
  | [a, b] => if a = 0 then utf16 false else if b = 0 then utf16 true else utf8
  | _ => utf8

/-- The encoding of a document, and the document without its mark. -/
def detect (b : Bytes) : Encoding × Bytes :=
  match marks.find? fun mark => mark.1.isPrefixOf b with
  | some (mark, encoding) => (encoding, b.drop mark.length)
  | none => (ofZeros b, b)

/-- The number of a unit. -/
def unit (littleEndian : Bool) (b : Bytes) : Nat := Bytes.toNat (if littleEndian then b.reverse else b)

/-- The numbers of all units of `width` bytes, unless the last one is cut short. -/
def units? (width : Nat) (littleEndian : Bool) (b : Bytes) : Option (List Nat) :=
  if b.length % width = 0 then
    some ((List.range (b.length / width)).map fun i => unit littleEndian ((b.drop (i * width)).take width))
  else none

/-- The code point of a high and a low surrogate. -/
def joinSurrogates (high low : CodePoint) : CodePoint :=
  CodePoint.ofNat (0x10000 + (high.val - 0xD800) * 1024 + (low.val - 0xDC00))

/-- Surrogates that come first in a pair. -/
def isHighSurrogate (c : CodePoint) : Bool := 0xD800 ≤ c.val && c.val ≤ 0xDBFF

/-- Surrogates that come second in a pair. -/
def isLowSurrogate (c : CodePoint) : Bool := 0xDC00 ≤ c.val && c.val ≤ 0xDFFF

/-- Append a code point to a reversed text, joining it with a high surrogate before it. -/
def pushJoining (done : Text) (c : CodePoint) : Text :=
  match done with
  | high :: rest => if isHighSurrogate high && isLowSurrogate c then joinSurrogates high c :: rest else c :: done
  | [] => [c]

/-- Decode UTF-8 in which surrogates may occur, onto the code points already read, the latest first. -/
def utf8Onto (done : Text) (skip : Nat) : Bytes → Option Text
  | [] => some done.reverse
  | b :: rest =>
    match skip with
    | skip + 1 => utf8Onto done skip rest
    | 0 =>
      match Utf8.step b rest with
      | .scalar c width => utf8Onto (c :: done) (width - 1) rest
      | .flaw .. =>
        match b, rest with
        | 0xED, second :: third :: _ =>
          if Utf8.continues second && Utf8.continues third then
            utf8Onto (Utf8.assemble 13 [second, third] :: done) 2 rest
          else none
        | _, _ => none

/-- The text of a document in an encoding. -/
def decode? : Encoding → Bytes → Option Text
  | utf8, b => utf8Onto [] 0 b
  | utf16 littleEndian, b =>
    (units? 2 littleEndian b).map fun us => (us.foldl (fun done u => pushJoining done (CodePoint.ofNat u)) []).reverse
  | utf32 littleEndian, b =>
    (units? 4 littleEndian b).bind fun us =>
      if us.all (· < 0x110000) then some (us.map CodePoint.ofNat) else none

end Encoding

end StacksWallet
