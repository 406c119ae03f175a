import StacksWallet.Json.Basic

/-!
# Writing JSON

Documents for the terminal are indented by two spaces for each level, those for a node have no blanks. Both keep
code points beyond ASCII as they are, and empty arrays and objects stay on one line.
-/

namespace StacksWallet.Json

/-- The escape of a code point that no quoted text holds as it is. -/
def escape? (c : CodePoint) : Option Text :=
  if c = 34 then some "\\\""
  else if c = 92 then some "\\\\"
  else if c = 10 then some "\\n"
  else if c = 13 then some "\\r"
  else if c = 9 then some "\\t"
  else if c = 12 then some "\\f"
  else if c = 8 then some "\\b"
  else if c.val < 32 then some ("\\u" ++ Text.hexPadded 4 c.val)
  else none

/-- A text between quotation marks. -/
def writeText (t : Text) : Text := "\"" ++ t.flatMap (fun c => (escape? c).getD [c]) ++ "\""

/-- A number as JSON spells it. -/
def writeReal (x : Binary64) : Text :=
  if x.isNaN then "NaN"
  else if x.isInfinite then (if x.isNegative then "-Infinity" else "Infinity")
  else x.display

/-- What stands between the parts of a document. -/
structure Layout where
  /-- What stands before an item or a bracket, by its level. -/
  lineBreak : Nat → Text
  /-- What stands between a member's name and its value. -/
  colon : Text

/-- Lines that are indented by two spaces for each level. -/
def Layout.indented : Layout := ⟨fun level => "\n" ++ List.replicate (2 * level) (32 : CodePoint), ": "⟩

/-- No blanks. -/
def Layout.compact : Layout := ⟨fun _ => [], ":"⟩

mutual

/-- A document that stands at a level. -/
def writeAt (layout : Layout) (level : Nat) : Json → Text
  | null => "null"
  | bool b => if b then "true" else "false"
  | int n => Text.ofInt n
  | real x => writeReal x
  | text t => writeText t
  | array [] => "[]"
  | array (item :: rest) =>
    "[" ++ layout.lineBreak (level + 1) ++ writeAt layout (level + 1) item ++ writeItems layout (level + 1) rest ++
      layout.lineBreak level ++ "]"
  | object [] => "\x7b\x7d"
  | object ((name, value) :: rest) =>
    "\x7b" ++ layout.lineBreak (level + 1) ++ writeText name ++ layout.colon ++ writeAt layout (level + 1) value ++
      writeMembers layout (level + 1) rest ++ layout.lineBreak level ++ "\x7d"

/-- The further items of an array, each after a comma. -/
def writeItems (layout : Layout) (level : Nat) : List Json → Text
  | [] => []
  | item :: rest => "," ++ layout.lineBreak level ++ writeAt layout level item ++ writeItems layout level rest

/-- The further members of an object, each after a comma. -/
def writeMembers (layout : Layout) (level : Nat) : List (Text × Json) → Text
  | [] => []
  | (name, value) :: rest =>
    "," ++ layout.lineBreak level ++ writeText name ++ layout.colon ++ writeAt layout level value ++
      writeMembers layout level rest

end

/-- An indented document. -/
def write (v : Json) : Text := writeAt .indented 0 v

/-- A document without blanks. -/
def writeCompact (v : Json) : Text := writeAt .compact 0 v

mutual

/-- Whether every number in a document is finite. -/
def isFinite : Json → Bool
  | null | bool _ | int _ | text _ => true
  | real x => !(x.isNaN || x.isInfinite)
  | array items => areFinite items
  | object members => haveFinite members

/-- Whether every number in some documents is finite. -/
def areFinite : List Json → Bool
  | [] => true
  | v :: rest => isFinite v && areFinite rest

/-- Whether every number in some members is finite. -/
def haveFinite : List (Text × Json) → Bool
  | [] => true
  | (_, v) :: rest => isFinite v && haveFinite rest

end

end StacksWallet.Json
