import ImageGateway.Login.Credentials
import ImageGateway.Server.Gateway
import ImageGateway.Server.RequestId
import ImageGateway.Server.Route

/-!
# Serving requests

The gateway answers one request at a time.  What the outside decides for a request is its
`Occasion`: the time, the directory, and the random values.  What becomes of the request is its
`Outcome`: the sessions behind it, the credentials that were shown to the directory, and the work
that leads to the response.  The sessions do not depend on what the registry answers.

* `handle` : the outcome of a request.
* `serve` : the responses to a list of requests, in front of a registry.
-/

namespace ImageGateway

namespace Server

open Http (Request Response)
open Registry (Exchange)

/-- What the outside decides for a request. -/
structure Occasion where
  now : Session.Instant
  directory : Directory
  /-- The token of the session that a login starts. -/
  token : String
  /-- The identifier of a request that brings none. -/
  requestId : String
  /-- The order in which the registry answers calls that are made together. -/
  schedule : Registry.Schedule

/-- What becomes of a request. -/
structure Outcome where
  sessions : Session.Store
  /-- The credentials that were shown to the directory. -/
  consulted : List Login.Credentials
  reply : Exchange Response

namespace Outcome

/-- A response that changes nothing. -/
def unchanged (sessions : Session.Store) (r : Response) : Outcome := ⟨sessions, [], .done r⟩

/-- Changes the response. -/
def mapReply (f : Response → Response) (o : Outcome) : Outcome :=
  { o with reply := o.reply >>= fun r => .done (f r) }

end Outcome

/-- The response with a cookie.  A cookie that no field may hold spoils the response, which then
has the other status. -/
def withCookie (cookie : String) (spoiled : Http.Status) (r : Response) : Response :=
  let value := Utf8.encode cookie
  if value.all Http.isValueByte then { r with headers := ⟨"set-cookie", value⟩ :: r.headers }
  else textResponse spoiled "failed to parse header value"

/-- The longest body that a login is read from, in bytes. -/
def longestForm : Nat := 2097152

/-- Starts a session for a user whom the directory knows. -/
def startSession (g : Gateway) (sessions : Session.Store) (o : Occasion) (c : Login.Credentials)
    (user : Directory.Authorized) : Outcome :=
  let session : Session := ⟨c.username, user.grants, o.now⟩
  let cookie := Session.setCookie o.token g.cookies g.lifetime
  -- a session is open even if its cookie spoils the response
  ⟨sessions.put o.token session o.now, [c],
    .done (withCookie cookie 500 (Api.Action.dashboardResponse session))⟩

/-- A login. -/
def login (g : Gateway) (sessions : Session.Store) (o : Occasion) (request : Request) : Outcome :=
  let body := request.body.bytes
  if longestForm < body.length then .unchanged sessions Refusal.bodyTooLong.response
  else match Login.credentials request.headers body with
    | .error refusal => .unchanged sessions refusal.response
    | .ok c =>
      match Directory.authorizeUser o.directory g.proxy.groupStart c.username c.password with
      | .error _ => ⟨sessions, [c], .done Refusal.invalidCredentials.response⟩
      | .ok user => startSession g sessions o c user

/-- A logout. -/
def logout (g : Gateway) (sessions : Session.Store) (request : Request) : Outcome :=
  let sessions := match Session.tokenOf? request.headers with
    | some token => sessions.delete token
    | none => sessions
  .unchanged sessions (withCookie (Session.clearCookie g.cookies) 204 (emptyResponse 204 []))

/-- The live session of a request, and the sessions without it if it has run out. -/
def liveSession (sessions : Session.Store) (now : Session.Instant) (request : Request) :
    Option Session × Session.Store :=
  match Session.tokenOf? request.headers with
  | none => (none, sessions)
  | some token => sessions.get token now

/-- The response to a method that a route does not take. -/
def methodNotAllowed (route : Route) : Response := emptyResponse 405 route.allowHeader

/-- The query of a request. -/
def queryOf (request : Request) : Bytes := Utf8.encode (request.target.query.getD "")

/-- A request to the introspection API.  Without a live session nothing else is looked at. -/
def api (g : Gateway) (sessions : Session.Store) (o : Occasion) (request : Request)
    (route : Api.ApiRoute) : Outcome :=
  let allowed := (Route.api route).takes request.method
  match liveSession sessions o.now request with
  | (none, sessions) =>
    let r := Refusal.unauthorized.response
    .unchanged sessions
      -- the allowed methods are told whoever asks with another one
      (if allowed then r else { r with headers := (Route.api route).allowHeader ++ r.headers })
  | (some session, sessions) =>
    if allowed then
      ⟨sessions, [], Api.respond g.client o.schedule session (queryOf request) route⟩
    else .unchanged sessions (methodNotAllowed (.api route))

/-- What the gateway is. -/
def versionValue : Json.Value :=
  .record [("version", .text "0.1.0"),
    ("repository", .text "https://github.com/registry-gate/registry-gate")]

/-- What becomes of a request on its route. -/
def onRoute (g : Gateway) (sessions : Session.Store) (o : Occasion) (request : Request)
    (route : Route) : Outcome :=
  match route with
  | .api route => api g sessions o request route
  -- the proxy takes every method, and no session counts there
  | .proxy =>
    ⟨sessions, (Proxy.credentialsOf request).toList, Proxy.respond g.proxy o.directory request⟩
  | route =>
    if !route.takes request.method then .unchanged sessions (methodNotAllowed route)
    else match route with
      | .login => login g sessions o request
      | .logout => logout g sessions request
      | .version => .unchanged sessions (jsonResponse 200 versionValue)
      | _ => .unchanged sessions (textResponse 200 "OK")

/-- The response as it is sent: with the identifier of the request, and without a body where the
method asks for none. -/
def finished (requestId : String) (request : Request) (r : Response) : Response :=
  let r := if request.method == .head then r.withoutBody else r
  { r with headers := r.headers.without requestIdHeader ++ [.ofText requestIdHeader requestId] }

/-- What becomes of a request. -/
def handle (g : Gateway) (sessions : Session.Store) (o : Occasion) (request : Request) : Outcome :=
  let requestId := (requestIdOf? request.headers).getD o.requestId
  let outcome := match Route.ofPath? request.target.path with
    | none => Outcome.unchanged sessions (emptyResponse 404 [])
    | some route => onRoute g sessions o request route
  outcome.mapReply (finished requestId request)

/-- A request that was served: the response, and the calls that it took. -/
structure Served where
  request : Request
  consulted : List Login.Credentials
  response : Response
  calls : List Registry.CallRecord

/-- The states of the gateway and of the registry. -/
structure World (σ : Type) where
  sessions : Session.Store
  registry : σ

/-- Serves one request in front of a registry. -/
def serveOne {σ : Type} (g : Gateway) (registry : Registry.Behaviour σ) (w : World σ)
    (o : Occasion) (request : Request) : Served × World σ :=
  let outcome := handle g w.sessions o request
  let run := outcome.reply.run registry w.registry
  (⟨request, outcome.consulted, run.result, run.calls⟩, ⟨outcome.sessions, run.state⟩)

/-- Serves a list of requests in front of a registry. -/
def serve {σ : Type} (g : Gateway) (registry : Registry.Behaviour σ) :
    World σ → List (Occasion × Request) → List Served × World σ
  | w, [] => ([], w)
  | w, (o, request) :: rest =>
    let (served, w) := serveOne g registry w o request
    let (more, w) := serve g registry w rest
    (served :: more, w)

end Server

end ImageGateway
