import ImageGateway.Access.Gate
import ImageGateway.Directory.Basic
import ImageGateway.Login.Credentials
import ImageGateway.Proxy.Headers
import ImageGateway.Registry.Exchange

/-!
# The raw registry protocol

A request of a registry client is authenticated, decided on and then passed on as it is.  Its path
and query are put behind the base URL of the registry, and the whole is read as a URL.  Reading
normalises it, so the path that is sent may differ from the one that was received, and the decision
is made twice: for either path.

* `Base.registryPath?` : the path that is sent, relative to the base.
* `Decision` : where a request goes and under which actor, or why it is refused.
* `decide` : the decision, given what the directory says.
* `forward` : the call to the registry and the response that the client gets.
-/

namespace ImageGateway

namespace Proxy

open Server (Refusal)
open Http (Request Response)

/-! ### Where a request goes -/

/-- The base of the registry, without slashes at the end. -/
structure Base where
  /-- The text of the URL. -/
  url : String
  /-- The path of the URL, empty for the root. -/
  path : String
deriving DecidableEq, Repr

/-- The base of a registry with this URL. -/
def Base.ofUrl (url : Url) : Base := ⟨Text.trimEnd '/' url.render, Text.trimEnd '/' url.pathText⟩

/-- The URL that a path and query lead to. -/
def Base.target (base : Base) (pathAndQuery : String) : Except UrlError Url :=
  Url.parse (base.url ++ pathAndQuery)

/-- The wording for a path and query that lead nowhere. -/
def invalidPathMessage (pathAndQuery : String) : String :=
  "Invalid registry path " ++ pathAndQuery

/-- The path of a target relative to the base, unless the target has left it. -/
def Base.registryPath? (base : Base) (target : Url) : Option String :=
  (Text.dropStart? base.path target.pathText).filter (Text.beginsWith "/")

/-! ### The decision -/

/-- How the proxy reaches the registry and who it asks about users. -/
structure ProxySettings where
  base : Base
  /-- The scheme that the registry is told clients use. -/
  forwardedProto : String
  /-- What the names of the groups begin with. -/
  groupStart : String
deriving DecidableEq, Repr

/-- A request that is passed on. -/
structure Decision where
  actor : Access.Principal
  target : Url
deriving DecidableEq, Repr

/-- The credentials that a request brings; a password must be among them. -/
def credentialsOf (request : Request) : Option Login.Credentials :=
  (Login.basicCredentials? request.headers).filter fun c => !c.password.isEmpty

/-- Both paths of the request are open to the actor. -/
def authorizeBoth (base : Base) (grant : Access.Grant) (request : Request) (target : Url) :
    Except Access.Denial Unit := do
  Access.authorize grant request.method request.target.path
  match base.registryPath? target with
  | some path =>
    if Access.isProtocolPath path then Access.authorize grant request.method path
    else .error .wrongNamespace
  | none => .error .wrongNamespace

/-- The decision on a request with these credentials. -/
def decideFor (s : ProxySettings) (directory : Directory) (request : Request)
    (c : Login.Credentials) : Except Refusal Decision :=
  match Directory.authorizeUser directory s.groupStart c.username c.password with
  | .error _ => .error .invalidCredentials
  | .ok user =>
    match s.base.target request.target.pathAndQuery with
    | .error _ => .error .invalidPath
    | .ok target =>
      match authorizeBoth s.base user.primary.grant request target with
      | .ok () => .ok ⟨user.primary, target⟩
      | .error _ => .error .forbidden

/-- The decision on a request. -/
def decide (s : ProxySettings) (directory : Directory) (request : Request) :
    Except Refusal Decision :=
  match credentialsOf request with
  | none => .error .authRequired
  | some c => decideFor s directory request c

/-- What a client is told who has to bring other credentials. -/
def challenge : Http.Header := .ofText "www-authenticate" "Basic realm=\"Registry\""

/-- The response to a request that is refused. -/
def refusalResponse (refusal : Refusal) : Response :=
  let r := refusal.response
  if r.status = 401 then { r with headers := challenge :: r.headers } else r

/-- The response that the client gets for the answer of the registry. -/
def responseOf (answer : Option Response) : Response :=
  match answer with
  | none => Refusal.registryUnavailable.response
  | some r => { r with headers := downstreamHeaders r.headers }

/-- The body of a request as it is handed to the HTTP client. -/
def streamOf (request : Request) : Option Bytes :=
  if request.body.isOver then none else some request.body.bytes

/-- Passes a request on. -/
def forward (s : ProxySettings) (request : Request) (target : Url) : Registry.Exchange Response :=
  Registry.send .passOn request.method target
      (registryHeaders request.headers request.clientIp s.forwardedProto) (streamOf request) >>=
    fun answer => .done (responseOf answer)

/-- The answer to a request of a registry client. -/
def respond (s : ProxySettings) (directory : Directory) (request : Request) :
    Registry.Exchange Response :=
  match decide s directory request with
  | .error refusal => .done (refusalResponse refusal)
  | .ok decision => forward s request decision.target

end Proxy

end ImageGateway
