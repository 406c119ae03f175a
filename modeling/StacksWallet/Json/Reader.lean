import StacksWallet.Bytes.Hex
import StacksWallet.Json.Basic
import StacksWallet.Text.Encoding

/-!
# Reading JSON

A document is first cut into tokens, then the tokens drive a machine that keeps the open arrays and objects
on a stack. Besides JSON's own words, the names of NaN and the infinities are numbers. Where a member's name
comes twice, the later value takes the place of the earlier one.
-/

namespace StacksWallet.Json

/-- A token. -/
inductive Token where
  /-- An opening bracket. -/
  | beginArray
  /-- A closing bracket. -/
  | endArray
  /-- An opening brace. -/
  | beginObject
  /-- A closing brace. -/
  | endObject
  /-- Between a name and its value. -/
  | colon
  /-- Between two items. -/
  | comma
  /-- A quoted text. -/
  | text (t : Text)
  /-- A word or a number. -/
  | bare (t : Text)

/-- The token that a mark is on its own. -/
def Token.ofMark? (c : CodePoint) : Option Token :=
  if c = 91 then some .beginArray
  else if c = 93 then some .endArray
  else if c = 123 then some .beginObject
  else if c = 125 then some .endObject
  else if c = 58 then some .colon
  else if c = 44 then some .comma
  else none

/-- Blanks between tokens. -/
def isGap (c : CodePoint) : Bool := c == 32 || c == 9 || c == 10 || c == 13

/-- Where the lexer stands. Texts are held in reverse; `paired` says that the latest code point is an escaped high
surrogate, which an escaped low one may complete. -/
inductive Place where
  /-- Between tokens. -/
  | between
  /-- Inside a word or number. -/
  | bare (done : Text)
  /-- Inside a quoted text. -/
  | quoted (done : Text) (paired : Bool)
  /-- After a backslash. -/
  | escape (done : Text) (paired : Bool)
  /-- Before `left` figures of an escape whose earlier figures spell `value`. -/
  | figures (done : Text) (paired : Bool) (left value : Nat)

/-- The code point of a one-letter escape. -/
def escaped? (c : CodePoint) : Option CodePoint :=
  [(34, 34), (92, 92), (47, 47), (98, 8), (102, 12), (110, 10), (114, 13), (116, 9)].lookup c

/-- End a quoted text's escape with its last figure. -/
def endEscape (done : Text) (paired : Bool) (c : CodePoint) : Place :=
  if paired then .quoted (Encoding.pushJoining done c) (Encoding.isHighSurrogate c)
  else .quoted (c :: done) (Encoding.isHighSurrogate c)

/-- Where the lexer stands after a code point, and the tokens so far, the latest first. -/
def lexStep (tokens : List Token) (c : CodePoint) : Place → Option (Place × List Token)
  | .between =>
    if isGap c then some (.between, tokens)
    else if c = 34 then some (.quoted [] false, tokens)
    else match Token.ofMark? c with
      | some mark => some (.between, mark :: tokens)
      | none => some (.bare [c], tokens)
  | .bare done =>
    if isGap c then some (.between, .bare done.reverse :: tokens)
    else if c = 34 then some (.quoted [] false, .bare done.reverse :: tokens)
    else match Token.ofMark? c with
      | some mark => some (.between, mark :: .bare done.reverse :: tokens)
      | none => some (.bare (c :: done), tokens)
  | .quoted done paired =>
    if c = 34 then some (.between, .text done.reverse :: tokens)
    else if c = 92 then some (.escape done paired, tokens)
    else if c.val < 32 then none
    else some (.quoted (c :: done) false, tokens)
  | .escape done paired =>
    if c = 117 then some (.figures done paired 4 0, tokens)
    else (escaped? c).map fun e => (.quoted (e :: done) false, tokens)
  | .figures done paired left value =>
    (hexValue? c).map fun d =>
      if left ≤ 1 then (endEscape done paired (CodePoint.ofNat (value * 16 + d)), tokens)
      else (.figures done paired (left - 1) (value * 16 + d), tokens)

/-- Cut a text into tokens. -/
def lexFrom (place : Place) (tokens : List Token) : Text → Option (List Token)
  | [] =>
    match place with
    | .between => some tokens.reverse
    | .bare done => some (.bare done.reverse :: tokens).reverse
    | _ => none
  | c :: rest =>
    match lexStep tokens c place with
    | some (place', tokens') => lexFrom place' tokens' rest
    | none => none

/-- What follows the whole part of a number: nothing, or a fraction, or an exponent, or both. -/
def isNumberTail (t : Text) : Bool :=
  let afterFraction :=
    match t with
    | c :: rest =>
      if c = 46 then
        if (rest.takeWhile CodePoint.isAsciiDigit).isEmpty then none else some (rest.dropWhile CodePoint.isAsciiDigit)
      else some t
    | [] => some []
  match afterFraction with
  | none => false
  | some [] => true
  | some (c :: rest) =>
    let figures := (Numeral.splitSign rest).2
    (c == 69 || c == 101) && !figures.isEmpty && figures.all CodePoint.isAsciiDigit

/-- The number that a bare token spells. -/
def number? (t : Text) : Option Json :=
  let negative := t.startsWith "-"
  let unsigned := if negative then t.drop 1 else t
  let whole := unsigned.takeWhile CodePoint.isAsciiDigit
  let tail := unsigned.dropWhile CodePoint.isAsciiDigit
  if whole.isEmpty || (whole.head? == some 48 && 1 < whole.length) || !isNumberTail tail then none
  else if tail.isEmpty then
    if maxNumeralDigits < whole.length then none
    else some (int (if negative then -(Numeral.ofFigures whole : Int) else Numeral.ofFigures whole))
  else (Binary64.readUnsigned negative unsigned).map real

/-- The value that a bare token stands for. -/
def word? (t : Text) : Option Json :=
  if t = Text.ofString "null" then some null
  else if t = Text.ofString "true" then some (bool true)
  else if t = Text.ofString "false" then some (bool false)
  else if t = Text.ofString "NaN" then some (real (Binary64.ofMagnitude false 0x7FF8000000000000))
  else if t = Text.ofString "Infinity" then some (real (Binary64.ofMagnitude false Binary64.infinityBits))
  else if t = Text.ofString "-Infinity" then some (real (Binary64.ofMagnitude true Binary64.infinityBits))
  else number? t

/-- An array or object that is still open, its content in reverse. -/
inductive Frame where
  /-- An array. -/
  | array (items : List Json)
  /-- An object in which a member with the given name is open. -/
  | object (members : List (Text × Json)) (name : Text)

/-- What may come next. -/
inductive Expectation where
  /-- A value. -/
  | value
  /-- A value, or the end of an empty array. -/
  | firstItem
  /-- A name, or the end of an empty object. -/
  | firstName
  /-- A name, in an object with earlier members. -/
  | name (members : List (Text × Json))
  /-- The colon after a name. -/
  | colon
  /-- A comma or the end of the innermost array or object. -/
  | separator
  /-- Nothing: the document is complete. -/
  | nothing (v : Json)

/-- A member put among earlier ones, the latest first. -/
def putMember (name : Text) (v : Json) (members : List (Text × Json)) : List (Text × Json) :=
  if members.any (·.1 == name) then members.map fun m => if m.1 == name then (name, v) else m
  else (name, v) :: members

/-- Hand a complete value to the innermost open array or object. -/
def deliver (v : Json) : List Frame → List Frame × Expectation
  | [] => ([], .nothing v)
  | .array items :: outer => (.array (v :: items) :: outer, .separator)
  | .object members name :: outer => (.object (putMember name v members) name :: outer, .separator)

/-- One token at a place where a value may stand. -/
def valueStep (stack : List Frame) : Token → Option (List Frame × Expectation)
  | .beginArray => some (.array [] :: stack, .firstItem)
  | .beginObject => some (stack, .firstName)
  | .text t => some (deliver (text t) stack)
  | .bare t => (word? t).map fun v => deliver v stack
  | _ => none

/-- One token. -/
def step (stack : List Frame) (expected : Expectation) (token : Token) : Option (List Frame × Expectation) :=
  match expected, token, stack with
  | .value, _, _ => valueStep stack token
  | .firstItem, .endArray, _ :: outer => some (deliver (array []) outer)
  | .firstItem, _, _ => valueStep stack token
  | .firstName, .endObject, _ => some (deliver (object []) stack)
  | .firstName, .text t, _ => some (.object [] t :: stack, .colon)
  | .name members, .text t, _ => some (.object members t :: stack, .colon)
  | .colon, .colon, _ => some (stack, .value)
  | .separator, .comma, .array _ :: _ => some (stack, .value)
  | .separator, .comma, .object members _ :: outer => some (outer, .name members)
  | .separator, .endArray, .array items :: outer => some (deliver (array items.reverse) outer)
  | .separator, .endObject, .object members _ :: outer => some (deliver (object members.reverse) outer)
  | _, _, _ => none

/-- Run the machine. -/
def build (stack : List Frame) (expected : Expectation) : List Token → Option Json
  | [] =>
    match expected with
    | .nothing v => some v
    | _ => none
  | token :: rest =>
    match step stack expected token with
    | some (stack', expected') => build stack' expected' rest
    | none => none

/-- The value of a document. -/
def read? (t : Text) : Option Json := (lexFrom .between [] t).bind (build [] .value)

/-- The value of a document in bytes. -/
def ofBytes? (b : Bytes) : Option Json :=
  let (encoding, body) := Encoding.detect b
  (encoding.decode? body).bind read?

end StacksWallet.Json
