import StacksWallet.Clarity.Value

/-!
# Canonical values and equality

A tuple means the same in whatever order its fields come. The canonical form of a value sorts the fields of
every tuple by name; two values are equal if their canonical forms agree.
-/

namespace StacksWallet

/-- Put a field before the first one whose name does not come before its own. -/
def insertField {α : Type} (field : Name × α) : List (Name × α) → List (Name × α)
  | [] => [field]
  | f :: rest => if f.1.precedes field.1 then f :: insertField field rest else field :: f :: rest

/-- Sort fields by name. -/
def sortFields {α : Type} : List (Name × α) → List (Name × α)
  | [] => []
  | f :: rest => insertField f (sortFields rest)

namespace Value

mutual

/-- The value with the fields of all its tuples sorted by name. -/
def canonical : Value → Value
  | some v => some (canonical v)
  | ok v => ok (canonical v)
  | err v => err (canonical v)
  | list items => list (canonicalItems items)
  | tuple fields => tuple (sortFields (canonicalFields fields))
  | v => v

/-- Values in canonical form, in their order. -/
def canonicalItems : List Value → List Value
  | [] => []
  | v :: rest => canonical v :: canonicalItems rest

/-- Fields with values in canonical form, in their order. -/
def canonicalFields : List (Name × Value) → List (Name × Value)
  | [] => []
  | (key, v) :: rest => (key, canonical v) :: canonicalFields rest

end

mutual

/-- Whether two values agree part by part. -/
def same : Value → Value → Bool
  | int a, int b => a == b
  | uint a, uint b => a == b
  | bool a, bool b => a == b
  | buffer a, buffer b => a == b
  | ascii a, ascii b => a == b
  | utf8 a, utf8 b => a == b
  | principal a, principal b => a == b
  | none, none => true
  | some a, some b => same a b
  | ok a, ok b => same a b
  | err a, err b => same a b
  | list a, list b => sameItems a b
  | tuple a, tuple b => sameFields a b
  | _, _ => false

/-- Whether two lists of values agree. -/
def sameItems : List Value → List Value → Bool
  | [], [] => true
  | a :: as, b :: bs => same a b && sameItems as bs
  | _, _ => false

/-- Whether two lists of fields agree. -/
def sameFields : List (Name × Value) → List (Name × Value) → Bool
  | [], [] => true
  | (k, a) :: as, (l, b) :: bs => k == l && same a b && sameFields as bs
  | _, _ => false

end

/-- Whether two values are equal, whatever the order of tuple fields. -/
def equal (a b : Value) : Bool := same a.canonical b.canonical

end Value

end StacksWallet
