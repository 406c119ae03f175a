import StacksWallet.Clarity.Decoding
import StacksWallet.Clarity.Encoding
import StacksWallet.Node.Answer
import StacksWallet.Transaction.Basic

/-!
# What a node is asked

The state of an account, the current fee rate, to take a transaction, and to evaluate a function of a contract
that only reads. Each answer must have the form that the question calls for.
-/

namespace StacksWallet

/-- The plain datum that a document is, unless it is an array or an object. -/
def Json.toDatum? : Json → Option Datum
  | null => some .absent
  | bool b => some (.flag b)
  | int n => some (.integer n)
  | real x => some (.real x)
  | text t => some (.text t)
  | array _ | object _ => none

/-- The document of a plain datum. -/
def Datum.toJson : Datum → Except Fault Json
  | absent => .ok .null
  | flag b => .ok (.bool b)
  | integer n => .ok (.int n)
  | real x => .ok (.real x)
  | text t => .ok (.text t)
  | bytes _ => .error .mistyped

/-- The datum within a sentence: a text without quotation marks, anything else as it is shown. -/
def Datum.phrase : Datum → Text
  | text t => t
  | d => d.shown

namespace Client

/-- A request that reads what is at a path. -/
def getRequest (c : Client) (path : Text) : Except Fault Request :=
  return ⟨.get, ← c.urlOf path, c.headers, .empty⟩

/-- A request that hands in bytes. -/
def octetsRequest (c : Client) (path : Text) (b : Bytes) : Except Fault Request :=
  return ⟨.post, ← c.urlOf path, c.headers.put "Content-Type" "application/octet-stream", .octets b⟩

/-- A request that hands in a document. -/
def documentRequest (c : Client) (path : Text) (v : Json) : Except Fault Request :=
  return ⟨.post, ← c.urlOf path, c.headers.putDefault "Content-Type" "application/json", ← Body.ofDocument v⟩

/-- The document with which a request is answered. -/
def ask (c : Client) (path : Text) (request : Except Fault Request) : Online Json := do
  let response ← c.send path request
  response.document (← request)

/-- That a document does not have the form that the question calls for. -/
def misfit (flaw : NodeFlaw) (path : Text) (body : Json) : Fault := .node { flaw, url := some path, body }

/-- The path of an account. -/
def accountPath (address : Text) : Text := "/v2/accounts/" ++ address

/-- The path of the fee rate. -/
def feeRatePath : Text := "/v2/fees/transfer"

/-- The path where transactions are handed in. -/
def transactionsPath : Text := "/v2/transactions"

/-- The state of an account: an object with a nonce. -/
def accountInfo (c : Client) (address : Datum) : Online Json := do
  let address ← Address.requireText address
  let _ ← Address.parseParts address
  let path := accountPath address
  let request := (c.getRequest path).map fun r => { r with url := r.url.withItem "proof" "0" }
  let body ← c.ask path request
  if (body.get? "nonce").isSome then return body else throw (misfit .accountForm path body)

/-- The nonce that the node expects next from an account. -/
def nonce (c : Client) (address : Datum) : Online Int := do
  let body ← c.accountInfo address
  match (body.get? "nonce").bind Json.toDatum? with
  | some d => d.truncate
  | none => throw .mistyped

/-- The current fee for a byte. -/
def feeRate (c : Client) : Online Int := do
  match ← c.ask feeRatePath (c.getRequest feeRatePath) with
  | .int n => return n
  | body => throw (misfit .feeRateForm feeRatePath body)

/-- The fee for a number of bytes. -/
def estimateFee (c : Client) (size : Datum) : Online Int := do
  let size ← size.truncate
  return size * (← c.feeRate)

/-- The fee for a transaction. -/
def estimateTransactionFee (c : Client) (t : Transaction) : Online Int := do
  let size ← t.byteLength
  return size * (← c.feeRate)

/-- Hand in the bytes of a transaction. The node answers with its identifier, perhaps between quotation marks. -/
def broadcast (c : Client) (b : Bytes) : Online Text := do
  let request := c.octetsRequest transactionsPath b
  let response ← c.send transactionsPath request
  if response.isError then throw (response.refusal .rejected (← request))
  return response.text.strip.trim (· == 34)

/-- Hand in a transaction. -/
def broadcastTransaction (c : Client) (t : Transaction) : Online Text := do
  c.broadcast (← (Transaction.serialize.run t).1)

/-- The path of a contract's function. -/
def functionPath (address contract function : Datum) : Text :=
  "/v2/contracts/call-read/" ++ address.phrase ++ "/" ++ contract.phrase ++ "/" ++ function.phrase

/-- The value that an answer to a read-only call holds. -/
def resultOf (path : Text) (body : Json) : Except Fault Value :=
  let undecodable := fun (reason : Text) => misfit (.undecodable reason) path body
  match body.get? "result" with
  | none => .error (undecodable (Fault.missingKey (.text "result")).message)
  | some result =>
    match Value.decodeHex (result.toDatum?.getD .absent) with
    | .ok v => .ok v
    | .error (.malformed offset flaw) => .error (undecodable (Fault.malformed offset flaw).message)
    | .error fault => .error fault

/-- Evaluate a function that only reads. The sender is the contract's address unless another one is given. -/
def callReadOnly (c : Client) (address contract function : Datum) (arguments : List (Arg Value)) (sender : Datum) :
    Online Value := do
  let path := functionPath address contract function
  let sender ← (if sender.isVacant then address else sender).toJson
  let encoded ← (arguments.mapM Value.encodeArg : Except Fault (List Bytes))
  let document := Json.object [("sender", sender), ("arguments", .array (encoded.map fun b => .text (Hex.prefixed b)))]
  let body ← c.ask path (c.documentRequest path document)
  match body with
  | .object _ =>
    if ((body.get? "okay").getD .null).isVacant then
      throw (misfit (.readOnlyFailed ((body.get? "cause").getD (.text "unknown cause")).phrase) path body)
    resultOf path body
  | _ => throw (misfit .readOnlyForm path body)

end Client

end StacksWallet
