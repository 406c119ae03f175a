import StacksWallet.Clarity.Principal

/-!
# Clarity values

The closed set of values that contracts take and give. The leaves carry their limits in their types; the
names of a tuple's fields are distinct in every value that the constructors make, and a tuple keeps its
fields in the order in which they were given.
-/

namespace StacksWallet

/-- The largest size of a buffer. -/
def bufferLimit : Nat := 1024 * 1024

/-- Byte strings of at most a mebibyte. -/
abbrev Buffer := { b : Bytes // b.length ≤ bufferLimit }

/-- The characters of ASCII strings: printable ASCII, tab, line feed and carriage return. -/
def isPlain (n : Nat) : Bool := (0x20 ≤ n && n < 0x7F) || n == 9 || n == 10 || n == 13

/-- ASCII strings. -/
abbrev AsciiText := { t : Text // (t.all fun c => isPlain c.val) = true }

/-- Texts that have a UTF-8 form. -/
abbrev Utf8Text := { t : Text // (t.all fun c => !c.isSurrogate) = true }

/-- A Clarity value. -/
inductive Value where
  /-- A signed integer. -/
  | int (n : Int128)
  /-- An unsigned integer. -/
  | uint (n : UInt128)
  /-- A truth value. -/
  | bool (b : Bool)
  /-- A byte string. -/
  | buffer (b : Buffer)
  /-- An ASCII string. -/
  | ascii (t : AsciiText)
  /-- A UTF-8 string. -/
  | utf8 (t : Utf8Text)
  /-- An account or contract. -/
  | principal (p : Principal)
  /-- The absent optional. -/
  | none
  /-- The present optional. -/
  | some (v : Value)
  /-- A response of success. -/
  | ok (v : Value)
  /-- A response of failure. -/
  | err (v : Value)
  /-- Values in order, of any kinds. -/
  | list (items : List Value)
  /-- Named values. -/
  | tuple (fields : List (Name × Value))
deriving Inhabited

/-- The kinds of value that the wire tells apart. -/
inductive Tag where
  /-- Signed integers. -/
  | int
  /-- Unsigned integers. -/
  | uint
  /-- Byte strings. -/
  | buffer
  /-- Truth. -/
  | boolTrue
  /-- Falsehood. -/
  | boolFalse
  /-- Accounts. -/
  | principalStandard
  /-- Contracts. -/
  | principalContract
  /-- Responses of success. -/
  | responseOk
  /-- Responses of failure. -/
  | responseErr
  /-- The absent optional. -/
  | optionalNone
  /-- Present optionals. -/
  | optionalSome
  /-- Lists. -/
  | list
  /-- Tuples. -/
  | tuple
  /-- ASCII strings. -/
  | stringAscii
  /-- UTF-8 strings. -/
  | stringUtf8
deriving DecidableEq

namespace Tag

/-- The tags in the order of their numbers. -/
def all : List Tag :=
  [int, uint, buffer, boolTrue, boolFalse, principalStandard, principalContract, responseOk, responseErr,
    optionalNone, optionalSome, list, tuple, stringAscii, stringUtf8]

/-- The tag's number on the wire. -/
def code : Tag → Nat
  | int => 0
  | uint => 1
  | buffer => 2
  | boolTrue => 3
  | boolFalse => 4
  | principalStandard => 5
  | principalContract => 6
  | responseOk => 7
  | responseErr => 8
  | optionalNone => 9
  | optionalSome => 10
  | list => 11
  | tuple => 12
  | stringAscii => 13
  | stringUtf8 => 14

/-- The tag with a number. -/
def ofCode? (n : Nat) : Option Tag := all[n]?

/-- The tag's name. -/
def name : Tag → String
  | int => "INT"
  | uint => "UINT"
  | buffer => "BUFFER"
  | boolTrue => "BOOL_TRUE"
  | boolFalse => "BOOL_FALSE"
  | principalStandard => "PRINCIPAL_STANDARD"
  | principalContract => "PRINCIPAL_CONTRACT"
  | responseOk => "RESPONSE_OK"
  | responseErr => "RESPONSE_ERR"
  | optionalNone => "OPTIONAL_NONE"
  | optionalSome => "OPTIONAL_SOME"
  | list => "LIST"
  | tuple => "TUPLE"
  | stringAscii => "STRING_ASCII"
  | stringUtf8 => "STRING_UTF8"

end Tag

namespace Value

/-- The kind of a value on the wire. -/
def tag : Value → Tag
  | int _ => .int
  | uint _ => .uint
  | bool b => if b then .boolTrue else .boolFalse
  | buffer _ => .buffer
  | ascii _ => .stringAscii
  | utf8 _ => .stringUtf8
  | principal p => if p.contract?.isSome then .principalContract else .principalStandard
  | none => .optionalNone
  | some _ => .optionalSome
  | ok _ => .responseOk
  | err _ => .responseErr
  | list _ => .list
  | tuple _ => .tuple

/-- The name of a value's kind, where another kind is expected. -/
def kind : Value → String
  | int _ => "IntCV"
  | uint _ => "UIntCV"
  | bool _ => "BoolCV"
  | buffer _ => "BufferCV"
  | ascii _ => "StringAsciiCV"
  | utf8 _ => "StringUtf8CV"
  | principal p => if p.contract?.isSome then "ContractPrincipalCV" else "StandardPrincipalCV"
  | none => "NoneCV"
  | some _ => "SomeCV"
  | ok _ => "OkCV"
  | err _ => "ErrCV"
  | list _ => "ListCV"
  | tuple _ => "TupleCV"

/-- A string between quotation marks, which a backslash guards inside. -/
def quote (t : Text) : Text :=
  "\"" ++ t.flatMap (fun c => if c == 92 || c == 34 then [92, c] else [c]) ++ "\""

mutual

/-- The value in the syntax of Clarity. -/
def text : Value → Text
  | int n => Text.ofInt n.val
  | uint n => "u" ++ Text.ofNat n.val
  | bool b => if b then "true" else "false"
  | buffer b => Hex.prefixed b.val
  | ascii t => quote t.val
  | utf8 t => "u" ++ quote t.val
  | principal p => p.text
  | none => "none"
  | some v => "(some " ++ text v ++ ")"
  | ok v => "(ok " ++ text v ++ ")"
  | err v => "(err " ++ text v ++ ")"
  | list items => "(list" ++ itemsText items ++ ")"
  | tuple fields => "(tuple" ++ fieldsText fields ++ ")"

/-- Values, each after a space. -/
def itemsText : List Value → Text
  | [] => []
  | v :: rest => " " ++ text v ++ itemsText rest

/-- Names with their values in parentheses, each after a space. -/
def fieldsText : List (Name × Value) → Text
  | [] => []
  | (key, v) :: rest => " (" ++ key.text ++ " " ++ text v ++ ")" ++ fieldsText rest

end

mutual

/-- How deep values are nested: a leaf has depth zero. -/
def depth : Value → Nat
  | some v | ok v | err v => depth v + 1
  | list items => itemsDepth items
  | tuple fields => fieldsDepth fields
  | _ => 0

/-- One more than the depth of the deepest of several values, and zero for none. -/
def itemsDepth : List Value → Nat
  | [] => 0
  | v :: rest => max (depth v + 1) (itemsDepth rest)

/-- One more than the depth of the deepest of several fields, and zero for none. -/
def fieldsDepth : List (Name × Value) → Nat
  | [] => 0
  | (_, v) :: rest => max (depth v + 1) (fieldsDepth rest)

end

/-- The value's principal, if it is one. -/
def principal? : Value → Option Principal
  | principal p => .some p
  | _ => .none

end Value

end StacksWallet
