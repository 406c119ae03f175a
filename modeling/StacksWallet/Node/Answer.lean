import StacksWallet.Node.Client

/-!
# Reading answers

An answer is a document, unless its status is that of an error. Nodes explain errors in documents of several
shapes or in plain text; the reason given to the caller is drawn from all of them.
-/

namespace StacksWallet

namespace Response

/-- How much of a text is kept that should explain an error. -/
def explanationLimit : Nat := 512

/-- How much of a text is kept that should be a document. -/
def excerptLimit : Nat := 256

/-- The document of an error, or its text. -/
def explanation (r : Response) : Json := r.json?.getD (.text (r.text.take explanationLimit))

/-- The members of a document that explain an error, joined. -/
def explainingMembers (v : Json) : Option Text :=
  let parts := ["error", "reason", "message"].filterMap fun name =>
    match v.get? (Text.ofString name) with
    | some part => if part.isVacant then none else some part.phrase
    | none => none
  if parts.isEmpty then none else some (Text.join ": " parts)

/-- Why the node answers with an error. -/
def reason (r : Response) : Text :=
  let status : Text := "HTTP " ++ Text.ofNat r.status
  match r.explanation with
  | .text t => if t.isEmpty then status else t
  | v => (explainingMembers v).getD status

/-- That a request was answered with an error. -/
def refusal (flaw : Text → NodeFlaw) (request : Request) (r : Response) : Fault :=
  .node { flaw := flaw r.reason, status := some r.status, url := some request.url.text, body := r.explanation }

/-- That an answer should be a document and is none. -/
def notDocument (request : Request) (r : Response) : Fault :=
  let excerpt := Json.text (r.text.take excerptLimit)
  .node { flaw := .notJson, status := some r.status, url := some request.url.text, body := excerpt }

/-- The document of an answer to a request. -/
def document (request : Request) (r : Response) : Except Fault Json :=
  if r.isError then .error (r.refusal .refused request)
  else
    match r.json? with
    | some v => .ok v
    | none => .error (r.notDocument request)

end Response

end StacksWallet
