import StacksWallet.Clarity.Construction

/-!
# Literals

Short texts for values: integers with and without the letter u, truth values, the absent optional,
hexadecimal buffers, strings between quotation marks, and principals. What stands between quotation marks is
taken as it is.
-/

namespace StacksWallet.Value

/-- Whether a text consists of digits of any kind. -/
def isNumeric (t : Text) : Bool := !t.isEmpty && t.all CodePoint.isDigit

/-- What stands between an opening of some length and a closing quotation mark. -/
def between (opening : Nat) (t : Text) : Text := (t.take (t.length - 1)).drop opening

/-- The value that a literal spells. -/
def ofLiteral (given : Text) : Except Fault Value :=
  let t := given.strip
  if t = Text.ofString "true" then .ok (bool true)
  else if t = Text.ofString "false" then .ok (bool false)
  else if t = Text.ofString "none" then .ok none
  else if t.startsWith "u\"" && t.endsWith "\"" && 3 ≤ t.length then ofUtf8 (.text (between 2 t))
  else if t.startsWith "\"" && t.endsWith "\"" && 2 ≤ t.length then ofAscii (.text (between 1 t))
  else if t.startsWith "0x" then ofBuffer (.text t)
  else if t.startsWith "u" && isNumeric (t.drop 1) then do ofUInt (.integer (← Datum.readInt (t.drop 1)))
  else if isNumeric (t.dropWhile (· == 45)) then do ofInt (.integer (← Datum.readInt t))
  else if Address.isValid (.text (t.takeWhile (· != 46))) then (Principal.parse t).map principal
  else .error (.argument (.notALiteral given))

end StacksWallet.Value
