import Reposcout.Framework.IpAddr
import Reposcout.Model.Text

/-!
# The request policy of the daemon

Every request passes three checks before its handler runs: the host it is addressed to, the page it
comes from, and the token, when the daemon has one.

A header value is a sequence of bytes.  The `http` crate is a parameter: how it decodes a value, and
which host it finds in an authority and in a URI.
-/

namespace Reposcout.Daemon

/-- What the `http` crate makes of header values and of texts. -/
structure HttpCrate where
  /-- `HeaderValue::to_str`. -/
  toStr : List UInt8 → Option String
  /-- The host of `parse::<Authority>`. -/
  authorityHost : String → Option String
  /-- The host of `parse::<Uri>`, which not every URI has. -/
  uriHost : String → Option (Option String)

/-- `HeaderMap`: the values in the order they came in, under names in lower case. -/
abbrev HeaderMap := List (String × List UInt8)

def HeaderMap.getAll (headers : HeaderMap) (name : String) : List (List UInt8) :=
  headers.filterMap fun header => if header.1 = name then some header.2 else none

/-- `HeaderMap::get`: of several values the first. -/
def HeaderMap.get (headers : HeaderMap) (name : String) : Option (List UInt8) :=
  (headers.getAll name).head?

/-- `Request`: its URI in parts, and its headers. -/
structure Request where
  uriAuthority : Option String
  uriPath : String
  uriQuery : Option String
  headers : HeaderMap

structure RequestPolicy where
  loopback : Bool
  authToken : Option String

inductive Verdict
  /-- `StatusCode::MISDIRECTED_REQUEST`. -/
  | misdirectedRequest
  /-- `StatusCode::FORBIDDEN`. -/
  | forbidden
  /-- `StatusCode::UNAUTHORIZED`, with an `ApiError`. -/
  | unauthorized (error : String)
  /-- `next.run(request)`. -/
  | next
  deriving DecidableEq

variable (http : HttpCrate)

def isBracket (c : Char) : Bool := c = '[' || c = ']'

/-- `value.trim_matches(['[', ']'])`. -/
def trimBrackets (value : String) : List Char :=
  trimEndMatches isBracket (value.toList.dropWhile isBracket)

/-- `value.eq_ignore_ascii_case("localhost")`. -/
def isLocalhost (value : String) : Bool := value.toList.map Char.toLower = "localhost".toList

def allowedNetworkHost (value : String) (loopback : Bool) : Bool :=
  if isLocalhost value then loopback
  else (IpAddr.parse (trimBrackets value)).any fun address => !loopback || address.isLoopback

def allowedRequestHost (value : String) (loopback : Bool) : Bool :=
  match http.authorityHost value with
  | none => false
  | some host => allowedNetworkHost host loopback

def allowedOrigin (value : String) (loopback : Bool) : Bool :=
  match http.uriHost value with
  | none => false
  | some host => host.any fun host => allowedNetworkHost host loopback

def allowedRequestAuthority (request : Request) (loopback : Bool) : Bool :=
  match request.headers.get "host" with
  | some value =>
    (http.toStr value).any fun authority => allowedRequestHost http authority loopback
  | none =>
    request.uriAuthority.any fun authority => allowedRequestHost http authority loopback

/-- The token of the query: the value of the first pair with that key. -/
def queryToken (query : String) : Option (List Char) :=
  (query.toList.splitOn '&').findSome? fun pair =>
    (splitOnce ['='] pair).bind fun parts =>
      if parts.1 = "token".toList then some parts.2 else none

/-- The token of the `Authorization` header. -/
def bearerToken (request : Request) : Option (List Char) :=
  ((request.headers.get "authorization").bind http.toStr).bind fun value =>
    (stripStart "Bearer " value.toList).or (stripStart "bearer " value.toList)

def requestHasValidToken (request : Request) (expected : String) (loopback : Bool) : Bool :=
  if bearerToken http request = some expected.toList then true
  else if (request.headers.get "x-reposcout-token").bind http.toStr = some expected then true
  else if loopback && request.uriPath = "/api/events" then
    request.uriQuery.bind queryToken = some expected.toList
  else false

def enforceRequestPolicy (policy : RequestPolicy) (request : Request) : Verdict :=
  if !allowedRequestAuthority http request policy.loopback then .misdirectedRequest
  else if ((request.headers.get "origin").bind http.toStr).any
      fun origin => !allowedOrigin http origin policy.loopback then .forbidden
  else
    match policy.authToken with
    | some expected =>
      if requestHasValidToken http request expected policy.loopback then .next
      else .unauthorized "missing or invalid daemon authentication token"
    | none => .next

end Reposcout.Daemon
