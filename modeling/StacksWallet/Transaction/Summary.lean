import StacksWallet.Json.Basic
import StacksWallet.Transaction.Basic

/-!
# Summaries

What a transaction is, for people to read. The summary of a signed transaction shows its identifier, for
which its bytes are made.
-/

namespace StacksWallet

namespace SpendingCondition

/-- The condition's fields. -/
def summary (c : SpendingCondition) : Json :=
  .object [("hash_mode", .text c.mode.name), ("signer", .text (Hex.plain c.signer)), ("nonce", .int c.nonce),
    ("fee", .int c.fee), ("signature", .text (Hex.plain c.signature))]

end SpendingCondition

namespace Payload

/-- The payload's fields. -/
def summary : Payload → Json
  | transfer recipient amount memo =>
    .object [("type", .text "token_transfer"), ("recipient", .text recipient.text), ("amount", .int amount.val),
      ("memo", .text memo.text)]
  | call address contract function arguments =>
    .object [("type", .text "contract_call"), ("contract", .text (contractText address contract)),
      ("function", .text function.text), ("args", .array (arguments.map fun v => .text v.text))]

end Payload

namespace Transaction

/-- The name of a kind of authorization in small letters. -/
def kindName (kind : AuthKind) : Text := Text.toAsciiLower kind.name

/-- The summary of the contents. -/
def contents (t : Transaction) : List (Text × Json) :=
  let e := t.envelope
  [("state", .text t.stage.name), ("version", .text (Text.toAsciiLower e.version.name)),
    ("chain_id", .text ("0x" ++ Text.hexPadded 8 e.chainId.val)), ("auth_type", .text (kindName e.auth.kind)),
    ("origin", e.auth.origin.summary), ("anchor_mode", .text e.anchor.name),
    ("post_condition_mode", .text e.conditionMode.name), ("post_conditions", .int e.conditions.length),
    ("payload", e.payload.summary)]

/-- The summary without the identifier. -/
def fields (t : Transaction) : List (Text × Json) :=
  match t.envelope.auth.sponsor? with
  | none => t.contents
  | some c => t.contents ++ [(Text.ofString "sponsor", c.summary)]

/-- The summary of a transaction. -/
def summary : Op Json := do
  let t ← get
  if t.stage = .unsigned then return .object t.fields
  else return .object (t.fields ++ [(Text.ofString "txid", Json.text (← id))])

/-- The transaction as a message shows it. -/
def shown (t : Transaction) : Text :=
  "Transaction(state=" ++ (t.stage.name : Text) ++ ", version=" ++ (t.envelope.version.name : Text) ++ ", auth=" ++
    (t.envelope.auth.kind.name : Text) ++ ", payload=" ++ (t.envelope.payload.kind : Text) ++ ")"

end Transaction

end StacksWallet
