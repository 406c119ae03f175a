import StacksWallet.Clarity.Value

/-!
# Making values

Values from what callers give. Everything that the wire could not carry is refused here: integers beyond 128
bits, large buffers, foreign characters, bad names, and two tuple fields of one name. Parts that are no
values are refused by the field in which they stand.
-/

namespace StacksWallet.Value

/-- A signed integer. -/
def ofInt (d : Datum) : Except Fault Value :=
  match d with
  | .integer n =>
    match Int128.ofInt? n with
    | .some k => .ok (int k)
    | .none => .error (.showing d (.invalid (.intRange n)))
  | _ => .error (.invalid .intKind)

/-- An unsigned integer. -/
def ofUInt (d : Datum) : Except Fault Value :=
  match d with
  | .integer n =>
    match below? _ n with
    | .some k => .ok (uint k)
    | .none => .error (.showing d (.invalid (.uintRange n)))
  | _ => .error (.invalid .uintKind)

/-- A buffer of bytes that are small enough. -/
def ofBytes (b : Bytes) : Except ValueFlaw Value :=
  if h : b.length ≤ bufferLimit then .ok (buffer ⟨b, h⟩) else .error (.bufferSize b.length)

/-- A buffer of bytes or of a hexadecimal text. -/
def ofBuffer (d : Datum) : Except Fault Value :=
  match d.toBytes with
  | .ok b => (ofBytes b).mapError .invalid
  | .error flaw => .error (.invalid (.bufferSource flaw))

/-- An ASCII string. -/
def ofAscii : Datum → Except Fault Value
  | .text t =>
    if h : (t.all fun c => isPlain c.val) = true then .ok (ascii ⟨t, h⟩)
    else if t.all CodePoint.isAscii then .error (.invalid (.asciiUnprintable t))
    else .error (.invalid (.asciiForeign t))
  | _ => .error (.invalid .asciiKind)

/-- A UTF-8 string. -/
def ofUtf8 : Datum → Except Fault Value
  | .text t =>
    if h : (t.all fun c => !c.isSurrogate) = true then .ok (utf8 ⟨t, h⟩) else .error (.invalid .utf8Unencodable)
  | _ => .error (.invalid .utf8Kind)

/-- A value where a value is asked for. -/
def require (field : Text) : Arg Value → Except Fault Value
  | .of v => .ok v
  | .plain d => .error (.invalid (.notAValue field d.kind))

/-- A present optional. -/
def ofSome (v : Arg Value) : Except Fault Value := (require "some" v).map some

/-- A response of success. -/
def ofOk (v : Arg Value) : Except Fault Value := (require "ok" v).map ok

/-- A response of failure. -/
def ofErr (v : Arg Value) : Except Fault Value := (require "err" v).map err

/-- The optional that is absent if nothing was given. -/
def ofOptional : Arg Value → Except Fault Value
  | .plain .absent => .ok none
  | v => ofSome v

/-- The items of a list from a position on. -/
def itemsFrom (position : Nat) : List (Arg Value) → Except Fault (List Value)
  | [] => .ok []
  | item :: rest => do
    let v ← require ("list[" ++ Text.ofNat position ++ "]") item
    return v :: (← itemsFrom (position + 1) rest)

/-- A list. -/
def ofList (items : List (Arg Value)) : Except Fault Value := (itemsFrom 0 items).map list

/-- The fields of a tuple after those already taken, the latest first. -/
def fieldsOnto (done : List (Name × Value)) : List (Datum × Arg Value) → Except Fault (List (Name × Value))
  | [] => .ok done.reverse
  | (key, item) :: rest => do
    let name ← Name.ofDatum "tuple key" key
    if done.any (·.1 == name) then throw (.invalid (.duplicateKey name.text))
    let v ← require ("tuple[" ++ name.text ++ "]") item
    fieldsOnto ((name, v) :: done) rest

/-- A tuple of fields in order. -/
def ofPairs (fields : List (Datum × Arg Value)) : Except Fault Value := (fieldsOnto [] fields).map tuple

/-- Associations put one after the other, where a later one takes the place of an earlier one of its key. -/
def associate {α : Type} (pairs : List (Datum × α)) : List (Datum × α) :=
  (pairs.foldl
    (fun done pair =>
      if done.any (·.1 == pair.1) then done.map fun p => if p.1 == pair.1 then (p.1, pair.2) else p
      else pair :: done)
    []).reverse

/-- A tuple of associations, of which the last one of each key counts. -/
def ofMapping (fields : List (Datum × Arg Value)) : Except Fault Value := ofPairs (associate fields)

/-- The value of a tuple's field. -/
def field? (key : Datum) (fields : List (Name × Value)) : Option Value :=
  match key with
  | .text t => (fields.find? fun f => f.1.text == t).map (·.2)
  | _ => .none

end StacksWallet.Value
