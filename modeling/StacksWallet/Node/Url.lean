import StacksWallet.Fault.Basic
import StacksWallet.Node.Host
import StacksWallet.Text.Quoted

/-!
# URLs

Where a request goes. A URL is read into its parts, of which the path and the query are kept in the form in
which they are sent: code points that have no place there are replaced by the escapes of their UTF-8 bytes. A
target is a path, perhaps with a query, and is resolved by appending it to the path of a root.

The client hands its URLs to a library for requests, and these rules are assumed of that library: which texts it refuses
as URLs, what it escapes, and how it joins a target to a root. The ASCII form of international names is not worked out:
a host with letters beyond ASCII stays as it is, in small letters as far as they are ASCII.
-/

namespace StacksWallet

/-- A URL in its parts. -/
structure Url where
  /-- The scheme, in small letters, or nothing. -/
  scheme : Text
  /-- What stands before the host, escaped, or nothing. -/
  userInfo : Text
  /-- The host, or nothing. Names are in small letters. -/
  host : Text
  /-- The port, unless it is the scheme's own. -/
  port? : Option Int
  /-- The path, escaped. -/
  path : Text
  /-- The query, escaped. -/
  query? : Option Text
  /-- The fragment, escaped. -/
  fragment? : Option Text
deriving DecidableEq

/-- What is asked of a node: a path, perhaps with a query. -/
structure Target where
  /-- The path, escaped. -/
  path : Text
  /-- The query, escaped. -/
  query? : Option Text
deriving DecidableEq

namespace Url

/-- The part of a URL in which a code point stands. -/
inductive Part where
  /-- The user. -/
  | user
  /-- The host. -/
  | host
  /-- The path. -/
  | path
  /-- The query. -/
  | query
  /-- The fragment. -/
  | fragment
deriving DecidableEq

/-- Visible characters that are escaped nevertheless. -/
def Part.reserved : Part → List Nat
  | user =>
    [0x22, 0x23, 0x2F, 0x3B, 0x3C, 0x3D, 0x3E, 0x3F, 0x40, 0x5B, 0x5C, 0x5D, 0x5E, 0x60, 0x7B, 0x7C, 0x7D]
  | host => [0x23, 0x2F, 0x3A, 0x3C, 0x3E, 0x3F, 0x40, 0x5B, 0x5D, 0x5E]
  | path => [0x22, 0x23, 0x3C, 0x3E, 0x3F, 0x60, 0x7B, 0x7D]
  | query => [0x22, 0x23, 0x3C, 0x3E]
  | fragment => [0x22, 0x3C, 0x3E, 0x60]

/-- Whether a code point stands for itself in a part. -/
def Part.keeps (part : Part) (c : CodePoint) : Bool :=
  0x20 < c.val && c.val < 0x7F && !part.reserved.contains c.val

/-- The capital hexadecimal figure of a number below sixteen. -/
def capitalFigure (n : Nat) : CodePoint := CodePoint.ofNat (if n < 10 then 48 + n else 55 + n)

/-- The escape of a byte. -/
def escapeByte (b : UInt8) : Text := [37, capitalFigure (b.toNat / 16), capitalFigure (b.toNat % 16)]

/-- A text as a part of a URL holds it. Surrogates have no escape. -/
def Part.escape (part : Part) : Text → Except Fault Text
  | [] => .ok []
  | c :: rest => do
    let own ←
      if part.keeps c then pure [c]
      else
        match Utf8.encode [c] with
        | .ok b => pure (b.flatMap escapeByte)
        | .error run => throw (.unencodable run)
    return own ++ (← escape part rest)

/-- The bytes that an escaped text stands for. -/
def unescape : Text → Bytes
  | [] => []
  | c :: rest =>
    if c = 37 then
      match rest with
      | high :: low :: rest' =>
        match hexValue? high, hexValue? low with
        | some a, some b => UInt8.ofNat (a * 16 + b) :: unescape rest'
        | _, _ => 37 :: unescape (high :: low :: rest')
      | [] => [37]
      | [low] => 37 :: unescape [low]
    else Utf8.encodeOne c ++ unescape rest

/-- What stands before and from the first of some marks on. -/
def splitAt (marks : List CodePoint) (t : Text) : Text × Text := t.span fun c => !marks.contains c

/-- Cut off what follows the first occurrence of a mark, if it occurs. -/
def splitAfter (mark : CodePoint) (t : Text) : Text × Option Text :=
  match splitAt [mark] t with
  | (before, _ :: after) => (before, some after)
  | (before, []) => (before, none)

/-- Path, query and fragment of a text, escaped. -/
def partsOf (t : Text) : Except Fault (Text × Option Text × Option Text) := do
  let (beforeFragment, fragment?) := splitAfter 35 t
  let (path, query?) := splitAfter 63 beforeFragment
  let path ← Part.path.escape path
  let query? ← query?.mapM Part.query.escape
  return (path, query?, ← fragment?.mapM Part.fragment.escape)

/-- The length of the longest URL, and of the longest part of one. -/
def maxLength : Nat := 65536

/-- Fail on a text that is too long. -/
def requireShort (t : Text) : Except Fault Unit := if maxLength < t.length then .error .badUrl else .ok ()

/-- Fail on a text that is too long or has control characters, which no URL holds. -/
def requireVisible (t : Text) : Except Fault Unit := do
  requireShort t
  if t.any fun c => c.val < 0x20 || c == 0x7F then throw .badUrl

/-- Whether a text is the name of a scheme, which may be empty. -/
def isSchemeName : Text → Bool
  | [] => true
  | c :: rest =>
    let isLetter := fun (c : CodePoint) => 97 ≤ c.toAsciiLower.val && c.toAsciiLower.val ≤ 122
    isLetter c && rest.all fun d => isLetter d || d.isAsciiDigit || [43, 45, 46].contains d.val

/-- The scheme at the front of a text, and the rest. -/
def splitScheme (t : Text) : Text × Text :=
  match splitAfter 58 t with
  | (name, some rest) => if isSchemeName name then (name.toAsciiLower, rest) else ([], t)
  | (_, none) => ([], t)

/-- The ports that need not be written. -/
def ownPorts : List (Text × Int) := [("http", 80), ("https", 443), ("ftp", 21), ("ws", 80), ("wss", 443)]

/-- The port that a text spells, unless it is the scheme's own. -/
def portOf (scheme given : Text) : Except Fault (Option Int) :=
  if given.isEmpty then .ok none
  else
    match Numeral.readInt given with
    | .ok n => .ok (if ownPorts.lookup scheme = some n then none else some n)
    | .error _ => .error .badUrl

/-- Host and port of a text. Colons within brackets belong to the host. -/
def splitHost (t : Text) : Text × Text :=
  let inBrackets := if t.head? = some 91 then Text.dropEndWhile (· != 93) t else []
  let host := if inBrackets.isEmpty then t.takeWhile (· != 58) else inBrackets
  let after := t.drop host.length
  (host, if after.head? = some 58 then after.drop 1 else after)

/-- The host that a text spells. Addresses are checked and stay as they are; names are put into small letters,
their escapes too. -/
def hostOf (t : Text) : Except Fault Text :=
  if Host.looksLikeNumbers t then if Host.isFourNumbers t then .ok t else .error .badUrl
  else
    match Host.bracketed? t with
    | some address => if Host.isZonedAddress address then .ok address else .error .badUrl
    | none =>
      if t.all CodePoint.isAscii then (Part.host.escape t).map Text.toAsciiLower else .ok t.toAsciiLower

/-- Fail on a path that would be taken for something else if neither scheme nor authority stand before it. -/
def requireUnambiguous (t : Text) : Except Fault Unit :=
  if t.startsWith "//" || t.startsWith ":" then .error .badUrl else .ok ()

/-- What stands before and after the last `@`. -/
def splitUserInfo (t : Text) : Text × Text :=
  match splitAfter 64 t.reverse with
  | (host, some userInfo) => (userInfo.reverse, host.reverse)
  | (_, none) => ([], t)

/-- Remove the steps of a path that stay in place or go back; `done` holds the earlier ones, the latest first. -/
def withoutSteps (done : List Text) : List Text → List Text
  | [] => done.reverse
  | step :: rest =>
    if step = Text.ofString "." then withoutSteps done rest
    else if step = Text.ofString ".." then withoutSteps (if done = [[]] then done else done.drop 1) rest
    else withoutSteps (step :: done) rest

/-- A path without the steps that stay in place or go back, where a scheme or an authority stands before it. -/
def cleanPath (isAbsolute : Bool) (path : Text) : Text :=
  if isAbsolute then Text.join "/" (withoutSteps [] (path.splitOn 47)) else path

/-- Read a URL. -/
def read (t : Text) : Except Fault Url := do
  requireVisible t
  let (scheme, rest) := splitScheme t
  let (authority, rest) := if rest.startsWith "//" then splitAt [47, 63, 35] (rest.drop 2) else ([], rest)
  let (userInfo, hostAndPort) := splitUserInfo authority
  let (host, port) := splitHost hostAndPort
  let userInfo ← Part.user.escape userInfo
  let host ← hostOf host
  let port? ← portOf scheme port
  let isAbsolute := !(scheme.isEmpty && userInfo.isEmpty && host.isEmpty && port?.isNone)
  if !isAbsolute then requireUnambiguous rest
  let (path, query?, fragment?) ← partsOf rest
  return ⟨scheme, userInfo, host, port?, cleanPath isAbsolute path, query?, fragment?⟩

/-- The target that a text names. -/
def targetOf (t : Text) : Except Fault Target := do
  requireVisible t
  let (path, query?, _) ← partsOf t
  return ⟨path, query?⟩

/-- User, host and port. -/
def authority (u : Url) : Text :=
  let host : Text := if u.host.contains 58 then "[" ++ u.host ++ "]" else u.host
  let user : Text := if u.userInfo.isEmpty then [] else u.userInfo ++ "@"
  user ++ host ++ (match u.port? with | some n => ":" ++ Text.ofInt n | none => [])

/-- A path and a query as one text. -/
def joinQuery (path : Text) : Option Text → Text
  | some query => path ++ "?" ++ query
  | none => path

/-- The text of the URL. -/
def text (u : Url) : Text :=
  let scheme : Text := if u.scheme.isEmpty then [] else u.scheme ++ ":"
  let authority : Text := if u.authority.isEmpty then [] else "//" ++ u.authority
  let fragment : Text := match u.fragment? with | some t => "#" ++ t | none => []
  scheme ++ authority ++ joinQuery u.path u.query? ++ fragment

/-- The URL of a target at a node whose URL is the root. -/
def resolve (root : Url) (target : Target) : Except Fault Url := do
  let own := joinQuery (if root.path.isEmpty then "/" else root.path) root.query?
  let directory := if own.endsWith "/" then own else own ++ "/"
  let (path, query?) := splitAfter 63 (directory ++ (joinQuery target.path target.query?).dropWhile (· == 47))
  requireShort path
  requireShort (query?.getD [])
  return { root with path := cleanPath (!root.scheme.isEmpty || !root.authority.isEmpty) path, query? }

/-- The URL with one item as its query. -/
def withItem (u : Url) (name value : Text) : Url := { u with query? := some (name ++ "=" ++ value) }

/-- The path that the escapes stand for. -/
def plainPath (u : Url) : Text := if u.path.isEmpty then "/" else Utf8.decodeLenient (unescape u.path)

end Url

end StacksWallet
