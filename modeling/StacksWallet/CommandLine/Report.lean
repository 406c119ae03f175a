import StacksWallet.Clarity.Literal
import StacksWallet.CommandLine.Command
import StacksWallet.Json.Writer
import StacksWallet.Node.Service
import StacksWallet.Text.Escape
import StacksWallet.Transaction.Build
import StacksWallet.Transaction.Summary

/-!
# Running commands

A command prints its result, a document or a line, only once it has succeeded. The domain's own faults are
reported with their wording; so are refused data by the two commands that read plain data. What is printed has no
terminal escapes.

Other faults and wrong usage end the program with the same status, and there too it puts a line of the form `error: …`
on the error channel. The words of that line are not the domain's: they come from the library that failed or from the
reader of options. They are left out, so a report without a complaint does not say that nothing is shown.
-/

namespace StacksWallet.CommandLine

/-- A line of text. -/
def line (t : Text) : Text := t ++ "\n"

/-- A document on lines of its own. -/
def documentLines (members : List (String × Json)) : Text :=
  line (Json.object (members.map fun m => (Text.ofString m.1, m.2))).write

/-- What is shown of a public key. -/
def addressReport (network : Network) (publicKey : Bytes) : Except Fault Text := do
  let address ← Address.ofPublicKey publicKey network.addressVersion
  return documentLines [("address", .text address.text), ("network", .text network.name),
    ("public_key", .text (Hex.plain publicKey)), ("hash160", .text (Hex.plain address.hash.val))]

/-- The bytes of a public key on the command line: pairs of figures, perhaps after `0x`. -/
def readPublicKey (given : Text) : Except Fault Bytes :=
  (Hex.pairs (if given.startsWith "0x" then given.drop 2 else given)).mapError fun flaw => .argument (.pairs flaw)

/-- Set nonce and fee, sign, and show the result. -/
def signedReport (scheme : SignatureScheme) (signer : Signer) (nonce fee : Int) :
    Transaction.Op (List (String × Json)) := do
  Transaction.setNonce (.integer nonce)
  Transaction.setFee (.integer fee)
  Transaction.sign scheme (.of signer)
  let id ← Transaction.id
  let bytes ← Transaction.toHex
  let t ← get
  return [("txid", .text id), ("tx", .text bytes), ("nonce", .int t.nonce), ("fee", .int t.fee)]

/-- Make a transfer and hand it in if that is asked for. What is not given is then asked of the node. -/
def transferReport (scheme : SignatureScheme) (config : Config) (network : Network) (r : TransferRequest) :
    Online Text := do
  let signer ← Signer.ofKey scheme (.text r.key)
  let order : Transaction.Order := { publicKey := .bytes signer.publicKey, network }
  let memo := (r.memo?.map Datum.text).getD .absent
  let t ← Transaction.ofTransfer scheme order (.plain (.text r.recipient)) (.integer r.amount) memo
  if r.broadcast then
    let client ← Client.ofConfig config
    let address ← signer.address network.addressVersion
    let nonce ← r.nonce?.getDM (client.nonce (.text address.text))
    let fee ← r.fee?.getDM (client.estimateTransactionFee t)
    let (members, signed) := (signedReport scheme signer nonce fee).run t
    let members ← members
    let id ← client.broadcastTransaction signed
    return documentLines (members ++ [("broadcast", .text id)])
  else
    return documentLines (← ((signedReport scheme signer (r.nonce?.getD 0) (r.fee?.getD 0)).run t).1)

/-- What a command prints. -/
def Command.output (scheme : SignatureScheme) (config : Config) : Command → Online Text
  | version => return line ("stacks-sdk " ++ describeRelease releaseNumber [])
  | addressOfPublic key => do addressReport (← config.networkOf) (← readPublicKey key)
  | addressOfPrivate key => do
    let signer ← Signer.ofKey scheme (.text key)
    addressReport (← config.networkOf) signer.publicKey
  | decodeValue hex => do
    let v ← Value.decodeHex (.text hex)
    return documentLines [("type", .text (Text.toAsciiLower v.tag.name)), ("repr", .text v.text)]
  | encodeValue literal => do
    let v ← Value.ofLiteral literal
    return line (Hex.prefixed (← v.encode))
  | decodeTransaction hex => do
    let t ← Transaction.deserialize (.text hex)
    return line (← (Transaction.summary.run t).1).write
  | transfer request => do transferReport scheme config (← config.networkOf) request
  | nonce address => do
    let client ← Client.ofConfig config
    return line (Text.ofInt (← client.nonce (.text address)))
  | callReadOnly address contract function arguments sender? => do
    let values ← (arguments.mapM fun a => Value.decodeHex (.text a) : Except Fault (List Value))
    let client ← Client.ofConfig config
    let sender := (sender?.map Datum.text).getD .absent
    let result ← client.callReadOnly (.text address) (.text contract) (.text function) (values.map .of) sender
    return documentLines [("repr", .text result.text), ("hex", .text (Hex.prefixed (← result.encode)))]

/-- Whether a command reads data that may be refused without being malformed. -/
def Command.readsPlainData : Command → Bool
  | addressOfPublic _ | addressOfPrivate _ | encodeValue _ => true
  | _ => false

/-- Whether a command reports a fault. -/
def Command.reports (command : Command) (fault : Fault) : Bool :=
  fault.isReported || (command.readsPlainData && fault.isRefusal)

/-- How a run ends. -/
structure Report where
  /-- The status: zero for success. -/
  status : Nat
  /-- What is printed. -/
  output : Text
  /-- The fault that the command reports, in words. -/
  complaint? : Option Text
deriving DecidableEq

/-- An overview of the commands. -/
def overview : Text :=
  "Usage: stacks-sdk [--network NAME] [--api-url URL] [--timeout SECONDS] [--log-level LEVEL] COMMAND\n" ++
    "Commands: version, address, decode-value, encode-value, decode-tx, transfer, nonce, call-read-only\n"

/-- The end of a run by a fault that the command does not report, or by wrong usage. What the program says of it in
words that are not the domain's is left out. -/
def Report.silent : Report := ⟨1, [], none⟩

/-- The report of a success. -/
def Report.success (output : Text) : Report := ⟨0, output.withoutEscapes, none⟩

/-- The report of a fault. -/
def Report.failure (fault : Fault) : Report := ⟨1, [], some (line ("error: " ++ fault.message)).withoutEscapes⟩

/-- Run a command line. -/
def run (scheme : SignatureScheme) (environment : Environment) (arguments : List Text) : StateM Link Report := do
  match Invocation.read? environment arguments with
  | none => return .silent
  | some .help => return .success overview
  | some (.run config command) =>
    match ← (command.output scheme config).run with
    | .ok output => return .success output
    | .error fault => return if command.reports fault then .failure fault else .silent

end StacksWallet.CommandLine
