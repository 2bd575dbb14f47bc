import ImageGateway.Server.Handle
import ImageGateway.Proofs.Registry.Exchange
import Mathlib.Data.List.Basic

/-!
# Serving one request

What `serveOne` does to a request on a known route, taken apart: the route decides on the sessions
and on the exchange with the registry, and finishing the response neither calls the registry nor
changes the status.

* `handle_of_route` : the outcome on a route.
* `serveOne_calls`, `serveOne_response`, `serveOne_sessions` : what is sent for a request, what is
  answered, and what is left of the sessions.
* `Sample` : a gateway with one user in front of a registry that agrees to everything, for the
  inputs at which theorems are tried.
-/

namespace ImageGateway

namespace Server

variable {σ : Type} {g : Gateway} {registry : Registry.Behaviour σ} {w : World σ} {o : Occasion}
  {request : Http.Request} {route : Route}

/-- The identifier under which a request is served. -/
def requestIdIn (o : Occasion) (request : Http.Request) : String :=
  (requestIdOf? request.headers).getD o.requestId

@[simp] theorem finished_status (id : String) (request : Http.Request) (r : Http.Response) :
    (finished id request r).status = r.status := by
  unfold finished
  dsimp only
  split_ifs <;> rfl

theorem finished_body {id : String} {request : Http.Request} (h : request.method ≠ .head)
    (r : Http.Response) : (finished id request r).body = r.body := by
  have : (request.method == .head) = false := by simpa using h
  simp only [finished, this]
  rfl

theorem handle_of_route {sessions : Session.Store}
    (h : Route.ofPath? request.target.path = some route) :
    handle g sessions o request =
      (onRoute g sessions o request route).mapReply (finished (requestIdIn o request) request) := by
  simp only [handle, h, requestIdIn]

theorem handle_of_no_route {sessions : Session.Store}
    (h : Route.ofPath? request.target.path = none) :
    handle g sessions o request = (Outcome.unchanged sessions (emptyResponse 404 [])).mapReply
      (finished (requestIdIn o request) request) := by
  simp only [handle, h, requestIdIn]

theorem serveOne_calls (h : Route.ofPath? request.target.path = some route) :
    (serveOne g registry w o request).1.calls =
      ((onRoute g w.sessions o request route).reply.run registry w.registry).calls := by
  simp only [serveOne, handle_of_route h, Outcome.mapReply, Registry.Exchange.run_bind_done]

theorem serveOne_response (h : Route.ofPath? request.target.path = some route) :
    (serveOne g registry w o request).1.response = finished (requestIdIn o request) request
      ((onRoute g w.sessions o request route).reply.run registry w.registry).result := by
  simp only [serveOne, handle_of_route h, Outcome.mapReply, Registry.Exchange.run_bind_done]

theorem serveOne_sessions (h : Route.ofPath? request.target.path = some route) :
    (serveOne g registry w o request).2.sessions =
      (onRoute g w.sessions o request route).sessions := by
  simp only [serveOne, handle_of_route h, Outcome.mapReply]

end Server

/-! ### A small world -/

namespace Server

namespace Sample

open Http (Header Request Response)

/-- Settings with a registry below a path. -/
def settings : Settings where
  server := {}
  registry := { url := "http://registry:5000/mirror/" }
  ldap := { url := "ldap://directory" }

/-- The registry of the settings. -/
def url : Url where
  scheme := "http".toList
  authority := some ⟨[], [], .name "registry".toList, some 5000⟩
  path := .segments ["mirror".toList, []]
  query := none
  fragment := none

/-- The gateway of the settings. -/
def gateway : Gateway := .withRegistry settings url

/-- One user, who may do everything in one namespace. -/
def directory : Directory := fun user password =>
  if user = "alice" && password = "secret" then .ok ["cn=team1_rwd,ou=groups"]
  else .error (.userNotFound user)

/-- A registry that has every tag and accepts every deletion. -/
def registry : Registry.Behaviour Unit := fun _ request =>
  if request.method = .head then
    (some { status := 200
            headers := [.ofText "docker-content-digest" "sha256:0a"]
            body := [] }, ())
  else (some { status := 202, headers := [], body := [] }, ())

/-- A time, and the token of the session that a login at that time opens. -/
def occasion (now : Session.Instant) (token : String) : Occasion :=
  ⟨now, directory, token, "00000000-0000-4000-8000-000000000000", []⟩

/-- The field with the password of the user. -/
def credentials : Header := .ofText "authorization" "Basic YWxpY2U6c2VjcmV0"

/-- The field with a session token. -/
def cookie (token : String) : Header := .ofText "cookie" ("registry_gate_session=" ++ token)

/-- A request without a body. -/
def request (method : Http.Method) (path : String) (query : Option String) (header : Header) :
    Request := ⟨method, ⟨path, query⟩, [header], .sized [], none⟩

/-- The request to delete a tag, with a session token. -/
def deleteTag (token : String) : Request :=
  request .delete "/api/tag" (some "repo=team1/app&tag=v1") (cookie token)

end Sample

end Server

end ImageGateway
