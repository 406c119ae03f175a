import StacksWallet.Text.Basic

/-!
# Command-line arguments

Arguments are options, some of which take a value, and operands. An option's value follows it as the next
argument, whatever that looks like, or after an equals sign. A lone `--` makes operands of everything after it.

The commands are built on a reader of options that is not theirs, and these rules are assumed of it: names are written
out in full, the last of several values holds, a switch has no value, and there are no short options that could be
joined. Of what it says about wrong usage nothing is assumed.
-/

namespace StacksWallet.CommandLine

/-- Which options there are. -/
structure Grammar where
  /-- Options that take a value. -/
  valued : List String
  /-- Options that take none. -/
  switches : List String
  /-- Whether options may follow operands; otherwise everything from the first operand on is one. -/
  interspersed : Bool

/-- Arguments by their role. -/
structure Arguments where
  /-- Options with their values, in order. -/
  values : List (Text × Text)
  /-- Options without a value. -/
  switches : List Text
  /-- Operands, in order. -/
  operands : List Text
deriving DecidableEq

namespace Arguments

/-- Operands alone. -/
def ofOperands (operands : List Text) : Arguments := ⟨[], [], operands⟩

/-- The arguments after an option with its value. -/
def afterValue (name value : Text) (a : Arguments) : Arguments := { a with values := (name, value) :: a.values }

/-- The arguments after an option without a value. -/
def afterSwitch (name : Text) (a : Arguments) : Arguments := { a with switches := name :: a.switches }

/-- The arguments after an operand. -/
def afterOperand (operand : Text) (a : Arguments) : Arguments := { a with operands := operand :: a.operands }

/-- The value of an option. Of several the last one holds. -/
def value? (a : Arguments) (name : String) : Option Text := a.values.reverse.lookup (Text.ofString name)

/-- Whether an option is given. -/
def has (a : Arguments) (name : String) : Bool := a.switches.contains (Text.ofString name)

end Arguments

/-- Whether an argument is an option. -/
def isOption (argument : Text) : Bool := argument.startsWith "-" && 1 < argument.length

/-- Whether an option is among some. -/
def isAmong (name : Text) (names : List String) : Bool := names.any fun n => Text.ofString n == name

/-- Tell options and operands apart, unless an option is unknown, lacks its value, or has one that it does not
take. -/
def Grammar.read (g : Grammar) : List Text → Option Arguments
  | [] => some (.ofOperands [])
  | argument :: rest =>
    if argument = Text.ofString "--" then some (.ofOperands rest)
    else if isOption argument then
      match Text.cut? "=" argument with
      | some (name, value) => if isAmong name g.valued then (g.read rest).map (·.afterValue name value) else none
      | none =>
        if isAmong argument g.switches then (g.read rest).map (·.afterSwitch argument)
        else if isAmong argument g.valued then
          match rest with
          | value :: rest' => (g.read rest').map (·.afterValue argument value)
          | [] => none
        else none
    else if g.interspersed then (g.read rest).map (·.afterOperand argument)
    else some (.ofOperands (argument :: rest))

end StacksWallet.CommandLine
