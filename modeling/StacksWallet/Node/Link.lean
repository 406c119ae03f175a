import StacksWallet.Fault.Basic
import StacksWallet.Json.Reader
import StacksWallet.Json.Writer
import StacksWallet.Node.Backoff
import StacksWallet.Node.Url

/-!
# The link to a node

What is sent over the link and what comes back. The link holds the outcomes of the requests still to come, in
order, and a record of the requests and waits so far, in the order in which they were made; every operation of the
client is a program that reads the former and extends the latter. What chance and the clock do when a wait is due
belongs to the link as well; no two waits are due after the same number of requests.
-/

namespace StacksWallet

/-- Named header values. Names are compared without regard to case. -/
abbrev Headers := List (Text × Text)

namespace Headers

/-- Whether two texts name the same header. -/
def sameName (a b : Text) : Bool := a.toAsciiLower == b.toAsciiLower

/-- The values under a name, joined. -/
def get? (name : Text) (h : Headers) : Option Text :=
  match (h.filter fun entry => sameName entry.1 name).map (·.2) with
  | [] => none
  | values => some (Text.join ", " values)

/-- The headers with one value under a name. -/
def put (name value : Text) (h : Headers) : Headers := h.filter (fun entry => !sameName entry.1 name) ++ [(name, value)]

/-- The headers with a value under a name that has none yet. -/
def putDefault (name value : Text) (h : Headers) : Headers := if (h.get? name).isSome then h else h.put name value

end Headers

/-- What is done at a URL. -/
inductive Method where
  /-- Something is read. -/
  | get
  /-- Something is handed in. -/
  | post
deriving DecidableEq

/-- The method's name. -/
def Method.name : Method → String
  | get => "GET"
  | post => "POST"

/-- What a request carries. -/
inductive Body where
  /-- Nothing. -/
  | empty
  /-- Bytes. -/
  | octets (b : Bytes)
  /-- A document. -/
  | document (v : Json)

namespace Body

/-- The bytes of what is carried. -/
def bytes : Body → Bytes
  | empty => []
  | octets b => b
  | document v => Utf8.bytes v.writeCompact

/-- A document that can be written: its numbers are finite, and its texts have no surrogates. -/
def ofDocument (v : Json) : Except Fault Body :=
  if !v.isFinite then .error (.argument .notFinite)
  else
    match Utf8.encode v.writeCompact with
    | .ok _ => .ok (document v)
    | .error run => .error (.unencodable run)

end Body

/-- A request. -/
structure Request where
  /-- What is done. -/
  method : Method
  /-- Where. -/
  url : Url
  /-- How the client presents itself and its wishes. -/
  headers : Headers
  /-- What is sent along. -/
  body : Body

/-- An answer to a request. -/
structure Response where
  /-- The status. -/
  status : Nat
  /-- The content. -/
  content : Bytes
deriving DecidableEq

namespace Response

/-- The content as text. -/
def text (r : Response) : Text := Utf8.decodeLenient r.content

/-- The content as a document. -/
def json? (r : Response) : Option Json := Json.ofBytes? r.content

/-- Statuses of errors. -/
def isError (r : Response) : Bool := 400 ≤ r.status

/-- Statuses after which the same request may succeed: too many requests, bad gateway, service unavailable and
gateway timeout. -/
def isTransient (r : Response) : Bool := [429, 502, 503, 504].contains r.status

end Response

/-- What becomes of a request. -/
inductive Outcome where
  /-- It is answered. -/
  | answer (r : Response)
  /-- The transport fails in a way that may pass, with a name and an explanation. -/
  | interruption (name explanation : Text)
  /-- The transport fails for good, with a name. -/
  | breakdown (name : Text)
deriving DecidableEq

/-- What becomes of a request when nobody is there. -/
def Outcome.nobody : Outcome := interruption "ConnectError" "no response left"

/-- What is done over the link. -/
inductive Action where
  /-- A request is sent. -/
  | request (r : Request)
  /-- Some seconds are waited. -/
  | wait (delay : Binary64)

/-- The state of the link. -/
structure Link where
  /-- What becomes of the requests still to come. -/
  outcomes : List Outcome
  /-- What was done so far, the latest first. -/
  record : List Action := []
  /-- What is found after so many requests. -/
  moments : Nat → Moment := fun _ => .first

/-- A program that uses the link and may fail. -/
abbrev Online := ExceptT Fault (StateM Link)

namespace Link

/-- The requests so far, the latest first. -/
def requests (link : Link) : List Request :=
  link.record.filterMap fun
    | .request r => some r
    | .wait _ => none

/-- The waits so far, in seconds, the latest first. -/
def waits (link : Link) : List Binary64 :=
  link.record.filterMap fun
    | .request _ => none
    | .wait delay => some delay

/-- Send a request. -/
def exchange (r : Request) : Online Outcome := do
  let link ← get
  match link.outcomes with
  | [] =>
    set { link with record := .request r :: link.record }
    return .nobody
  | outcome :: later =>
    set { link with outcomes := later, record := .request r :: link.record }
    return outcome

/-- What is found now. -/
def moment (link : Link) : Moment := link.moments link.requests.length

/-- Wait for some seconds, if the clock allows it. -/
def wait (delay : Binary64) : Online Unit := do
  let link ← get
  link.moment.clock.allow delay
  set { link with record := .wait delay :: link.record }

end Link

end StacksWallet
