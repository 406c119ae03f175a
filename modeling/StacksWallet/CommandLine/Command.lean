import StacksWallet.CommandLine.Arguments
import StacksWallet.CommandLine.NumberOption
import StacksWallet.Config

/-!
# Commands

What can be asked for on the command line. Options before a command's name set up the configuration; each
command has options and operands of its own. Everything that is not a command in this form is a usage error.
-/

namespace StacksWallet.CommandLine

/-- A transfer to make. -/
structure TransferRequest where
  /-- The sender's private key. -/
  key : Text
  /-- Who receives. -/
  recipient : Text
  /-- How much. -/
  amount : Int
  /-- What it is about. -/
  memo? : Option Text
  /-- The fee, unless it should be asked for. -/
  fee? : Option Int
  /-- The sender's nonce, unless it should be asked for. -/
  nonce? : Option Int
  /-- Whether the transaction is handed in. -/
  broadcast : Bool
deriving DecidableEq

/-- A command. -/
inductive Command where
  /-- Show the release. -/
  | version
  /-- Show the address of a public key. -/
  | addressOfPublic (key : Text)
  /-- Show the address of a private key. -/
  | addressOfPrivate (key : Text)
  /-- Show the value that a hexadecimal text spells. -/
  | decodeValue (hex : Text)
  /-- Show the bytes of a literal's value. -/
  | encodeValue (literal : Text)
  /-- Show the transaction that a hexadecimal text spells. -/
  | decodeTransaction (hex : Text)
  /-- Make a transfer. -/
  | transfer (request : TransferRequest)
  /-- Show the nonce that the node expects next from an account. -/
  | nonce (address : Text)
  /-- Evaluate a function that only reads. -/
  | callReadOnly (address contract function : Text) (arguments : List Text) (sender? : Option Text)
deriving DecidableEq

/-- The grammar of a command with some options. -/
def commandGrammar (valued switches : List String) : Grammar := ⟨valued, "--help" :: switches, true⟩

/-- The grammar of a command by its name. -/
def grammarOf? : String → Option Grammar
  | "version" | "decode-value" | "encode-value" | "decode-tx" | "nonce" => some (commandGrammar [] [])
  | "address" => some (commandGrammar ["--public-key", "--private-key"] [])
  | "transfer" =>
    some (commandGrammar ["--key", "--recipient", "--amount", "--memo", "--fee", "--nonce"] ["--broadcast"])
  | "call-read-only" => some (commandGrammar ["--sender"] [])
  | _ => none

/-- The integer of an option, where one is given. -/
def integer? : Option Text → Option (Option Int)
  | none => some none
  | some t => (NumberOption.integer? t).map some

/-- The transfer that some arguments ask for. The key may come from the environment. -/
def TransferRequest.ofArguments? (environment : Environment) (a : Arguments) : Option TransferRequest := do
  let key ← (a.value? "--key").or (Config.setting environment "STACKS_PRIVATE_KEY")
  let recipient ← a.value? "--recipient"
  let amount ← (← integer? (a.value? "--amount"))
  let fee? ← integer? (a.value? "--fee")
  let nonce? ← integer? (a.value? "--nonce")
  return ⟨key, recipient, amount, a.value? "--memo", fee?, nonce?, a.has "--broadcast"⟩

/-- The command of a name and its arguments. -/
def Command.ofArguments? (environment : Environment) (name : String) (a : Arguments) : Option Command :=
  match name, a.operands with
  | "version", [] => some version
  | "address", [] =>
    match a.value? "--public-key", a.value? "--private-key" with
    | some key, none => some (addressOfPublic key)
    | none, some key => some (addressOfPrivate key)
    | _, _ => none
  | "decode-value", [hex] => some (decodeValue hex)
  | "encode-value", [literal] => some (encodeValue literal)
  | "decode-tx", [hex] => some (decodeTransaction hex)
  | "transfer", [] => (TransferRequest.ofArguments? environment a).map transfer
  | "nonce", [address] => some (nonce address)
  | "call-read-only", address :: contract :: function :: arguments =>
    some (callReadOnly address contract function arguments (a.value? "--sender"))
  | _, _ => none

/-- The grammar of what stands before a command's name. -/
def settingsGrammar : Grammar := ⟨["--network", "--api-url", "--timeout", "--log-level"], ["--help"], false⟩

/-- The timeout of an option, where one is given. -/
def timeoutOf : Option Text → Except Fault Datum
  | none => .ok .absent
  | some t =>
    match NumberOption.real? t with
    | some x => .ok (.real x)
    | none => .error (.argument (.notANumber t))

/-- The configuration of the environment and the options before a command's name. A timeout from the environment
stands in for the option, and is read like one too. -/
def configOf (environment : Environment) (a : Arguments) : Except Fault Config := do
  let timeout ← timeoutOf ((a.value? "--timeout").or (Config.setting environment "STACKS_TIMEOUT"))
  let base ← Config.ofEnvironment environment "STACKS_"
  let given := fun (name : String) => ((a.value? name).map Datum.text).getD .absent
  base.withOverrides [("network", given "--network"), ("api_url", given "--api-url"), ("request_timeout", timeout)]

/-- What a command line asks for. -/
inductive Invocation where
  /-- An overview of the commands. -/
  | help
  /-- A command under a configuration. -/
  | run (config : Config) (command : Command)

/-- The command of a command line's rest under a configuration. -/
def Invocation.ofRest? (environment : Environment) (config : Config) (name : Text) (rest : List Text) :
    Option Invocation := do
  let grammar ← grammarOf? name.toString
  let a ← grammar.read rest
  if a.has "--help" then some help
  else return run config (← Command.ofArguments? environment name.toString a)

/-- What a command line asks for, unless it is used wrongly. -/
def Invocation.read? (environment : Environment) (arguments : List Text) : Option Invocation := do
  let settings ← settingsGrammar.read arguments
  if settings.has "--help" then some help
  else
    match settings.operands with
    | [] => none
    | name :: rest => ofRest? environment (← (configOf environment settings).toOption) name rest

end StacksWallet.CommandLine
