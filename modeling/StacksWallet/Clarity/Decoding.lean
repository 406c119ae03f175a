import StacksWallet.Clarity.Construction
import StacksWallet.Clarity.Encoding

/-!
# Values from bytes

A reader of values accepts nothing that could not have been written: keys must come in strict order, strings
must obey the rules of their kind, and values may be nested at most 32 deep. Counts are checked against the
bytes that are left before any element is read; `guarded` says whether this is done.
-/

namespace StacksWallet.Value

/-- How deep values may be nested in what is read. -/
def depthLimit : Nat := 32

/-- Read the fields of a tuple onto those already read, the latest first. -/
def readFieldsOnto (inner : Reader Value) (previous : Option Name) (done : List (Name × Value)) :
    Nat → Reader (List (Name × Value))
  | 0 => return done.reverse
  | n + 1 => do
    let start ← Reader.position
    let key ← Name.read .tupleKey
    if previous.any fun earlier => !earlier.precedes key then Reader.malformed start (.keyOrder key.text)
    let v ← inner
    readFieldsOnto inner (Option.some key) ((key, v) :: done) n

/-- Read a signed integer. -/
def readInt : Reader Value := do
  match ofInt (.integer (← Reader.i128)) with
  | .ok v => return v
  | .error fault => throw fault

/-- Read an unsigned integer. -/
def readUInt : Reader Value := do
  match ofUInt (.integer (← Reader.u128)) with
  | .ok v => return v
  | .error fault => throw fault

/-- Read a buffer. -/
def readBuffer : Reader Value := do
  let start ← Reader.position
  let b ← Reader.longBytes
  Reader.require start .value (ofBytes b)

/-- Read an ASCII string. -/
def readAscii : Reader Value := do
  let start ← Reader.position
  let raw ← Reader.longBytes
  let t : Text := raw.map fun b => CodePoint.ofNat b.toNat
  if h : (t.all fun c => isPlain c.val) = true then return ascii ⟨t, h⟩ else Reader.malformed start .notAscii

/-- Read a UTF-8 string. -/
def readUtf8 : Reader Value := do
  let start ← Reader.position
  let raw ← Reader.longBytes
  let t ← Reader.require start .notUtf8 (Utf8.decode raw)
  if h : (t.all fun c => !c.isSurrogate) = true then return utf8 ⟨t, h⟩ else throw (.invalid .utf8Unencodable)

/-- Read the content of a value of a kind, with a reader for the values in it. -/
def readContent (guarded : Bool) (inner : Reader Value) : Tag → Reader Value
  | .int => readInt
  | .uint => readUInt
  | .buffer => readBuffer
  | .boolTrue => return bool true
  | .boolFalse => return bool false
  | .principalStandard => return principal (← Principal.readStandard)
  | .principalContract => return principal (← Principal.readContract)
  | .responseOk => return ok (← inner)
  | .responseErr => return err (← inner)
  | .optionalNone => return none
  | .optionalSome => return some (← inner)
  | .list => do return list (← Reader.times inner (← Reader.count guarded .listItems))
  | .tuple => do
    let n ← Reader.count guarded .tupleFields
    return tuple (← readFieldsOnto inner Option.none [] n)
  | .stringAscii => readAscii
  | .stringUtf8 => readUtf8

/-- Read a value that is nested on fewer than a number of levels. -/
def readWithin (guarded : Bool) : Nat → Reader Value
  | 0 => do Reader.malformed (← Reader.position) .tooDeep
  | levels + 1 => do
    let start ← Reader.position
    let n ← Reader.u8
    match Tag.ofCode? n with
    | Option.none => Reader.malformed start (.unknownTag .value n)
    | Option.some tag => readContent guarded (readWithin guarded levels) tag

/-- Read a value. -/
def read (guarded : Bool) : Reader Value := readWithin guarded (depthLimit + 1)

/-- The value that stands in some bytes at an offset, and the number of its bytes. -/
def decode (b : Bytes) (offset : Int) : Except Fault (Value × Int) := Reader.decodeAt (read true) b offset

/-- The value that some bytes are. -/
def decodeExact (b : Bytes) : Except Fault Value := do
  let (v, used) ← decode b 0
  if used = b.length then return v
  else throw (.malformed (Option.some used) (.trailing .value (b.length - used)))

/-- The value that a hexadecimal text spells. -/
def decodeHex (d : Datum) : Except Fault Value :=
  match d.hexBytes with
  | .ok b => decodeExact b
  | .error flaw => .error (.malformed Option.none (.valueSource flaw))

end StacksWallet.Value
