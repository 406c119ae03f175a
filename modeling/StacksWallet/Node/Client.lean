import StacksWallet.Config
import StacksWallet.Fault.Message
import StacksWallet.Node.Backoff
import StacksWallet.Node.Link

/-!
# The client of a node

A client knows where its node answers and how often a request is tried. A request is sent until it is answered
with a status that will not pass; after each interruption or transient status the client waits, unless the
attempt was its last. A wait for which there is no number, or which the clock refuses, ends the attempts.
-/

namespace StacksWallet

/-- A client of a node. -/
structure Client where
  /-- The node's URL as it was given, without slashes at its end. -/
  baseUrl : Text
  /-- The node's URL, as the directory in which every target is. -/
  root : Url
  /-- How often a failed request is tried again. -/
  retries : Datum
  /-- The first wait. -/
  backoffBase : Datum
  /-- How much longer each wait is than the one before. -/
  backoffFactor : Datum
  /-- The most that chance may add to a wait. -/
  backoffJitter : Datum
  /-- What is sent with every request. -/
  headers : Headers

namespace Client

/-- The wait before the second attempt, in seconds. -/
def defaultBackoffBase : Datum := .real (Binary64.ofRatio false 15 100)

/-- The most that is added to a wait, in seconds. -/
def defaultBackoffJitter : Datum := .real (Binary64.ofRatio false 2 10)

/-- What is sent with every request unless the caller says otherwise. -/
def defaultHeaders : List (Text × Datum) :=
  [("Accept", .text "application/json"), ("User-Agent", .text defaultUserAgent)]

/-- Put a header among others. Here names count as the same only if they are written alike. -/
def putHeader (headers : List (Text × Datum)) (entry : Text × Datum) : List (Text × Datum) :=
  if headers.any (·.1 == entry.1) then headers.map fun h => if h.1 == entry.1 then entry else h
  else headers ++ [entry]

/-- A text of ASCII characters. -/
def requireAscii (t : Text) : Except Fault Text :=
  match UnencodableRun.find? .ascii 0 t with
  | none => .ok t
  | some run => .error (.unencodable run)

/-- A header in the form in which it is sent. -/
def sendable : Text × Datum → Except Fault (Text × Text)
  | (name, .text value) => return (← requireAscii name, ← requireAscii value)
  | _ => .error .mistyped

/-- The client of a node. -/
def make (url : Text) (retries backoffBase backoffFactor backoffJitter : Datum) (headers : List (Text × Datum)) :
    Except Fault Client := do
  let baseUrl := dropSlashes url
  let root ← (← Url.read baseUrl).resolve ⟨[], none⟩
  let headers ← (headers.foldl putHeader defaultHeaders).mapM sendable
  return ⟨baseUrl, root, retries, backoffBase, backoffFactor, backoffJitter, headers⟩

/-- The client for the nodes of a network. -/
def ofNetwork (n : Network) : Except Fault Client :=
  make n.apiUrl (.integer 3) defaultBackoffBase (.real Config.defaultBackoff) defaultBackoffJitter []

/-- The client that a configuration describes. -/
def ofConfig (c : Config) : Except Fault Client := do
  make (← c.networkOf).apiUrl c.retries defaultBackoffBase c.backoff defaultBackoffJitter c.headers

/-- How often a request is tried again. -/
def retryCount (c : Client) : Except Fault Int :=
  match c.retries with
  | .integer n => .ok n
  | .flag b => .ok (if b then 1 else 0)
  | _ => .error .mistyped

/-- The failure of a request that was tried in vain, with what was seen last. -/
def exhausted (c : Client) (path : Text) (attempts : Int) (seen : Json) : Fault :=
  .showing (.integer attempts) (.node { flaw := .exhausted attempts, url := some (c.baseUrl ++ path), body := seen })

/-- What an outcome decides. -/
inductive Verdict where
  /-- The request has come to its end. -/
  | settled (result : Except Fault Response)
  /-- Another attempt may succeed; `seen` tells what happened. -/
  | again (seen : Text)

/-- Interruptions and transient statuses call for another attempt. -/
def verdict : Outcome → Verdict
  | .answer r => if r.isTransient then .again ("HTTP " ++ Text.ofNat r.status) else .settled (.ok r)
  | .interruption name explanation => .again (name ++ ": " ++ explanation)
  | .breakdown name => .settled (.error (.transport name))

/-- Try a request up to a number of times, after `failed` attempts the latest of which ended as `seen`. -/
def attempt (c : Client) (giveUp : Json → Fault) (request : Request) (failed : Nat) (seen : Json) :
    Nat → Online Response
  | 0 => throw (giveUp seen)
  | left + 1 => do
    match verdict (← Link.exchange request) with
    | .settled result => result
    | .again seen =>
      if 0 < left then
        let chance := (← get).moment.chance
        Link.wait (← backoffDelay c.backoffBase c.backoffFactor c.backoffJitter chance (failed + 1))
      attempt c giveUp request (failed + 1) (.text seen) left

/-- Send a request, as often as the client allows. `path` names the target in messages. -/
def send (c : Client) (path : Text) (request : Except Fault Request) : Online Response := do
  let attempts := (← c.retryCount) + 1
  if attempts ≤ 0 then throw (c.exhausted path attempts .null)
  attempt c (c.exhausted path attempts) (← request) 0 .null attempts.toNat

/-- The URL of a path at the client's node. -/
def urlOf (c : Client) (path : Text) : Except Fault Url := do c.root.resolve (← Url.targetOf path)

end Client

end StacksWallet
