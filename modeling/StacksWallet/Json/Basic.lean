import StacksWallet.Number.Binary64
import StacksWallet.Text.Quoted

/-!
# JSON values

What nodes answer. Integers are kept apart from other numbers, and an object keeps its members in the order
in which their names first came. A message shows a value much like the plain data of callers.
-/

namespace StacksWallet

/-- A JSON value. -/
inductive Json where
  /-- No value. -/
  | null
  /-- A truth value. -/
  | bool (b : Bool)
  /-- A number without fraction and exponent. -/
  | int (n : Int)
  /-- Any other number. -/
  | real (x : Binary64)
  /-- A text. -/
  | text (t : Text)
  /-- A sequence of values. -/
  | array (items : List Json)
  /-- Named values. -/
  | object (members : List (Text × Json))
deriving Inhabited

namespace Json

/-- The value of an object's member. -/
def get? (name : Text) : Json → Option Json
  | object members => members.lookup name
  | _ => none

/-- Null, false, zero and everything empty count as vacant. -/
def isVacant : Json → Bool
  | null => true
  | bool b => !b
  | int n => n == 0
  | real x => x.isZero
  | text t => t.isEmpty
  | array items => items.isEmpty
  | object members => members.isEmpty

mutual

/-- The value as a message shows it. -/
def shown : Json → Text
  | null => "None"
  | bool b => if b then "True" else "False"
  | int n => Text.ofInt n
  | real x => x.display
  | text t => t.quoted
  | array items => "[" ++ Text.join ", " (shownItems items) ++ "]"
  | object members => "\x7b" ++ Text.join ", " (shownMembers members) ++ "\x7d"

/-- The items of an array as a message shows them. -/
def shownItems : List Json → List Text
  | [] => []
  | item :: rest => shown item :: shownItems rest

/-- The members of an object as a message shows them. -/
def shownMembers : List (Text × Json) → List Text
  | [] => []
  | (name, value) :: rest => (name.quoted ++ ": " ++ shown value) :: shownMembers rest

end

/-- The value within a sentence: a text without its quotation marks, anything else as it is shown. -/
def phrase : Json → Text
  | text t => t
  | v => v.shown

end Json

end StacksWallet
