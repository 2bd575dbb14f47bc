import ImageGateway.Api.Name
import ImageGateway.Api.Payload
import ImageGateway.Codec.Percent

/-!
# The introspection API

A request to the API is first decided on and then carried out.  `Action.decide` looks at the session
and the query alone and gives an action or a refusal; `Action.perform` is the work with the registry
that an action takes.  What is refused therefore never reaches the registry.
-/

namespace ImageGateway

namespace Api

open Server (Refusal jsonResponse)
open Http (Response)
open Registry (Client Exchange Lookup Schedule)

/-- What can be asked of the API. -/
inductive ApiRoute where
  | dashboard
  | catalog
  | repos
  | tags
  | tagInfo
  | tagLayers
  | tag
deriving DecidableEq, Repr

/-- Something that a session may do. -/
inductive Action where
  | showDashboard
  | listCatalog (nameSpace : String)
  | listRepositories (nameSpace : String)
  | listTags (repo : String)
  | showTagInfo (repo tag : String)
  | showTagDetails (repo tag : String)
  | deleteTag (repo tag : String)
deriving DecidableEq, Repr

/-- The session must have a grant on the namespace. -/
def checkNamespace (session : Session) (nameSpace : String) : Except Refusal Unit :=
  if session.covers nameSpace then .ok () else .error .namespaceNotAllowed

/-- The pairs of a query in which none of the names is repeated. -/
def queryData (names : List String) (query : Bytes) : Except Refusal (List (String × String)) :=
  let data := Form.pairs query
  match Form.repeated? names data with
  | some name => .error (.repeatedField name)
  | none => .ok data

/-- The namespace that a query names, if the session has a grant on it. -/
def namespaceOf (session : Session) (query : Bytes) : Except Refusal String := do
  let data ← queryData ["namespace"] query
  let nameSpace := Text.trim (Form.value data "namespace")
  if nameSpace.isEmpty then .error .namespaceNotAllowed
  else
    checkNamespace session nameSpace
    .ok nameSpace

/-- The repository that a query names, if the session has a grant on its namespace. -/
def repositoryOf (session : Session) (query : Bytes) : Except Refusal RepositoryName := do
  let data ← queryData ["repo"] query
  let name ← RepositoryName.ofRaw (Form.value data "repo")
  checkNamespace session name.nameSpace
  .ok name

/-- The tag that a query names, if the session has a grant on its namespace. -/
def tagOf (session : Session) (query : Bytes) : Except Refusal TagName := do
  let data ← queryData ["repo", "tag"] query
  let name ← TagName.ofRaw (Form.value data "repo") (Form.value data "tag")
  checkNamespace session name.repository.nameSpace
  .ok name

namespace Action

/-- What a request asks for, if the session may do it. -/
def decide (session : Session) (query : Bytes) : ApiRoute → Except Refusal Action
  | .dashboard => .ok .showDashboard
  | .catalog => (namespaceOf session query).map .listCatalog
  | .repos => (namespaceOf session query).map .listRepositories
  | .tags => (repositoryOf session query).map fun name => .listTags name.repo
  | .tagInfo => (tagOf session query).map fun name => .showTagInfo name.repository.repo name.tag
  | .tagLayers =>
    (tagOf session query).map fun name => .showTagDetails name.repository.repo name.tag
  | .tag => do
    let name ← tagOf session query
    if session.mayDelete name.repository.nameSpace then
      .ok (.deleteTag name.repository.repo name.tag)
    else .error .deleteNotAllowed

/-- The fields that keep a response out of every cache. -/
def noCacheHeaders : Http.Headers :=
  [.ofText "cache-control" "no-store, no-cache, must-revalidate, max-age=0",
    .ofText "pragma" "no-cache", .ofText "expires" "0"]

/-- The response that shows the dashboard of a session. -/
def dashboardResponse (session : Session) : Response :=
  let r := jsonResponse 200 (Dashboard.ofSession session).value
  { r with headers := r.headers ++ noCacheHeaders }

/-- The response to a lookup; every failure looks the same. -/
def answer {α : Type} (show? : α → Json.Value) (found : Except Registry.RegistryError α) :
    Response :=
  match found with
  | .ok a => jsonResponse 200 (show? a)
  | .error _ => Refusal.registryUnavailable.response

/-- Looks something up and shows it. -/
def lookUp {α : Type} (work : Lookup α) (show? : α → Json.Value) : Exchange Response :=
  work.run >>= fun found => .done (answer show? found)

/-- The response to a deletion. -/
def deletionAnswer (repo tag : String) (done : Except Registry.DeletionError Unit) : Response :=
  match done with
  | .ok () => jsonResponse 200 (deletedValue repo tag)
  | .error e => (Refusal.ofDeletion e).response

/-- Carries an action out. -/
def perform (client : Client) (schedule : Schedule) (session : Session) :
    Action → Exchange Response
  | .showDashboard => .done (dashboardResponse session)
  | .listCatalog nameSpace =>
    lookUp (client.fetchCatalog schedule nameSpace) (catalogValue session.user nameSpace)
  | .listRepositories nameSpace =>
    lookUp (client.fetchRepositories nameSpace) (repositoriesValue nameSpace)
  | .listTags repo => lookUp (client.fetchTags repo) (tagsValue repo)
  | .showTagInfo repo tag => lookUp (client.fetchTagInfo repo tag) tagInfoValue
  | .showTagDetails repo tag => lookUp (client.fetchTagDetails repo tag) tagDetailsValue
  | .deleteTag repo tag =>
    (client.deleteTag repo tag).run >>= fun done => .done (deletionAnswer repo tag done)

end Action

/-- The answer to a request of a session. -/
def respond (client : Client) (schedule : Schedule) (session : Session) (query : Bytes)
    (route : ApiRoute) : Exchange Response :=
  match Action.decide session query route with
  | .error refusal => .done refusal.response
  | .ok action => action.perform client schedule session

end Api

end ImageGateway
