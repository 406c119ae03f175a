import StacksWallet.Datum.Coercion
import StacksWallet.Network
import StacksWallet.Release

/-!
# Configuration

Which network is meant, where its node answers, and how patient the client is. A configuration names a known
network, its URL is empty or begins with a scheme, and neither the number of retries nor the timeout is
negative. The environment supplies what callers leave open; an empty variable counts as unset.
-/

namespace StacksWallet

/-- A configuration. Numbers are kept as they were given. -/
structure Config where
  /-- The name of the network, as it was given. -/
  network : Text
  /-- Where the node answers, unless the network's own URL is meant. -/
  apiUrl : Datum
  /-- How long an answer may take, in seconds. -/
  timeout : Datum
  /-- How often a failed request is tried again. -/
  retries : Datum
  /-- How much longer each wait is than the one before. -/
  backoff : Datum
  /-- How the client names itself. -/
  userAgent : Datum
deriving DecidableEq

/-- Environment variables, each with its value. -/
abbrev Environment := List (Text × Text)

namespace Config

/-- Whether a URL begins with one of the two schemes, in letters of either case. -/
def hasScheme (url : Text) : Bool :=
  let small := url.toAsciiLower
  small.startsWith "http://" || small.startsWith "https://"

/-- A URL without the slashes at its end; it must begin with a scheme unless it is vacant. -/
def urlOf (d : Datum) : Except Fault Datum :=
  if d.isVacant then .ok d
  else
    match d with
    | .text url => if hasScheme url then .ok (.text (dropSlashes url)) else .error (.argument (.apiUrl url))
    | _ => .error .inapplicable

/-- The text of a network's name, which must be known. -/
def networkName (d : Datum) : Except Fault Text :=
  match d with
  | .text t => (Network.ofName t).map fun _ => t
  | _ => .error .inapplicable

/-- The configuration of the given fields. -/
def make (network apiUrl timeout retries backoff userAgent : Datum) : Except Fault Config := do
  let network ← networkName network
  let apiUrl ← urlOf apiUrl
  if ← retries.isBelowZero then throw (.argument .retries)
  if ← timeout.isAtMostZero then throw (.argument .timeout)
  return ⟨network, apiUrl, timeout, retries, backoff, userAgent⟩

/-- Ten seconds. -/
def defaultTimeout : Binary64 := Binary64.ofInt 10

/-- Each wait is 1.8 times as long as the one before. -/
def defaultBackoff : Binary64 := Binary64.ofRatio false 18 10

/-- The fields that a caller may give by name, with what holds if they are not given. -/
def defaults : List (Text × Datum) :=
  [("network", .text "mainnet"), ("api_url", .absent), ("request_timeout", .real defaultTimeout),
    ("max_retries", .integer 3), ("backoff_factor", .real defaultBackoff), ("user_agent", .text defaultUserAgent)]

/-- The configuration of fields by name. Every name must be a field's. -/
def ofFields (fields : List (Text × Datum)) : Except Fault Config := do
  if fields.any fun f => (defaults.lookup f.1).isNone then throw .mistyped
  let field := fun (name : Text) => ((fields.lookup name).or (defaults.lookup name)).getD .absent
  make (field "network") (field "api_url") (field "request_timeout") (field "max_retries") (field "backoff_factor")
    (field "user_agent")

/-- A variable's value, unless it is empty. -/
def setting (environment : Environment) (name : Text) : Option Text :=
  match environment.lookup name with
  | some value => if value.isEmpty then none else some value
  | none => none

/-- The configuration that the environment describes. -/
def ofEnvironment (environment : Environment) (start : Text) : Except Fault Config := do
  let value := fun (name : Text) => setting environment (start ++ name)
  let network := (value "NETWORK").getD "mainnet"
  let apiUrl := ((value "API_URL").map Datum.text).getD .absent
  let timeout ← Datum.readReal ((value "TIMEOUT").getD "10.0")
  let retries ← Datum.readInt ((value "MAX_RETRIES").getD "3")
  let backoff ← Datum.readReal ((value "BACKOFF").getD "1.8")
  let userAgent := (value "USER_AGENT").getD defaultUserAgent
  make (.text network) apiUrl (.real timeout) (.integer retries) (.real backoff) (.text userAgent)

/-- The fields by name, with the numbers brought to their kinds. -/
def fields (c : Config) : Except Fault (List (Text × Datum)) := do
  let timeout ← c.timeout.toReal
  let retries ← c.retries.truncate
  let backoff ← c.backoff.toReal
  return [("network", .text c.network), ("api_url", c.apiUrl), ("request_timeout", .real timeout),
    ("max_retries", .integer retries), ("backoff_factor", .real backoff), ("user_agent", c.userAgent)]

/-- The configuration with some fields replaced. Unknown names are ignored, and so is what is absent. -/
def withOverrides (c : Config) (overrides : List (Text × Datum)) : Except Fault Config := do
  let known ← c.fields
  ofFields (known.map fun (name, d) =>
    match overrides.lookup name with
    | some .absent | none => (name, d)
    | some d' => (name, d'))

/-- The network, with its nodes at the configured URL. -/
def networkOf (c : Config) : Except Fault Network := do
  let n ← Network.ofName c.network
  match c.apiUrl with
  | .text url => return n.withApiUrl url
  | _ => return n

/-- What the client sends with every request. -/
def headers (c : Config) : List (Text × Datum) := [("Accept", .text "application/json"), ("User-Agent", c.userAgent)]

end Config

end StacksWallet
