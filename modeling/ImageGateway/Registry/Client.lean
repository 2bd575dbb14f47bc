import ImageGateway.Registry.Document
import ImageGateway.Registry.Error
import ImageGateway.Registry.Exchange

/-!
# The client of the registry

What the gateway asks the registry on behalf of the introspection API.  A lookup is an exchange
that may fail with a `RegistryError`; every response but one of status 200 is a failure.

The paths are put together as text and read as URLs only when they are sent, so what a name with
unusual characters leads to is decided by the URL parser.
-/

namespace ImageGateway

namespace Registry

/-- Work with the registry that may fail. -/
abbrev Lookup := ExceptT RegistryError Exchange

/-- The client of the registry. -/
structure Client where
  /-- The text in front of every path, without slashes at its end. -/
  base : String
  /-- The number of tag lists that are fetched at a time, at least one. -/
  window : Nat
deriving DecidableEq, Repr

/-- The field that carries the digest of a manifest. -/
def digestHeader : String := "docker-content-digest"

/-- A manifest as it is served, with the fields that describe it. -/
structure ManifestPayload where
  body : Bytes
  contentType : String
  digest : String
deriving DecidableEq, Repr

/-- The accepted types as a header field. -/
def acceptHeader (types : String) : Http.Headers := [.ofText "accept" types]

/-- A response of status 200, or the failure that any other answer is. -/
def successOf (answer : Option Http.Response) : Except RegistryError Http.Response :=
  match answer with
  | none => .error .network
  | some response => if response.status = 200 then .ok response else .error (.ofResponse response)

/-- The body of a response, if it arrived whole. -/
def bodyOf (response : Http.Response) : Except RegistryError Bytes :=
  if response.broken then .error (.invalidResponse .brokenBody) else .ok response.body

/-- The document that a body is. -/
def decodeBody {α : Type} (decode : Json.Value → Option α) (body : Bytes) :
    Except RegistryError α :=
  match (Json.parse? body).bind decode with
  | some document => .ok document
  | none => .error (.invalidResponse .undecodable)

/-- The document that an answer holds. -/
def documentOf {α : Type} (decode : Json.Value → Option α) (answer : Option Http.Response) :
    Except RegistryError α := do
  decodeBody decode (← bodyOf (← successOf answer))

namespace Client

/-- The client of a registry with this base URL, given as text. -/
def ofText (url : String) (window : Nat) : Client := ⟨Text.trimEnd '/' url, max window 1⟩

/-- The URL of a path below the root of the registry protocol. -/
def url (c : Client) (path : String) : String := c.base ++ "/v2/" ++ path

/-- The path of a manifest. -/
def manifestPath (repo reference : String) : String := repo ++ "/manifests/" ++ reference

/-- The path of a blob. -/
def blobPath (repo digest : String) : String := repo ++ "/blobs/" ++ digest

/-- The path of a list of tags. -/
def tagsPath (repo : String) : String := repo ++ "/tags/list"

/-- The call for a path; none if its URL cannot be read or is not one for HTTP.  A URL that is too
long to be sent is not told apart: it is a call that obtains no response. -/
def call? (c : Client) (method : Http.Method) (path : String) (headers : Http.Headers) :
    Option Call :=
  match Url.parse (c.url path) with
  | .error _ => none
  | .ok url => if url.isHttp then some ⟨.follow, .make method url headers []⟩ else none

/-- Asks for a path. -/
def ask (c : Client) (method : Http.Method) (path : String) (headers : Http.Headers) :
    Exchange (Option Http.Response) :=
  match c.call? method path headers with
  | none => .done none
  | some call => .call call .done

/-- Asks for a path and goes on with what `read` makes of the answer. -/
def fetch {α : Type} (c : Client) (method : Http.Method) (path : String) (headers : Http.Headers)
    (read : Option Http.Response → Except RegistryError α) : Lookup α :=
  ExceptT.mk (c.ask method path headers >>= fun answer => .done (read answer))

/-- The manifest that an answer holds. -/
def manifestOf (answer : Option Http.Response) : Except RegistryError ManifestPayload := do
  let response ← successOf answer
  let body ← bodyOf response
  .ok {
    body
    contentType := (response.headers.firstText? "content-type").getD ""
    digest := (response.headers.firstText? digestHeader).getD "" }

/-- The digest that an answer states. -/
def digestOf (answer : Option Http.Response) : Except RegistryError String := do
  let response ← successOf answer
  match response.headers.firstText? digestHeader with
  | some digest => if digest.isEmpty then .error .digestMissing else .ok digest
  | none => .error .digestMissing

/-- The tags that an answer lists. -/
def tagsOf (answer : Option Http.Response) : Except RegistryError (List String) := do
  let document ← documentOf TagsDocument.ofJson? answer
  .ok (document.tags.getD [])

/-- The repositories of an answer that lie under the namespace, in the order of the catalog. -/
def repositoriesOf (nameSpace : String) (answer : Option Http.Response) :
    Except RegistryError (List String) := do
  let document ← documentOf CatalogDocument.ofJson? answer
  .ok (document.repositories.filter (Text.beginsWith (nameSpace ++ "/")))

/-- The repositories under a namespace. -/
def fetchRepositories (c : Client) (nameSpace : String) : Lookup (List String) :=
  c.fetch .get "_catalog" [] (repositoriesOf nameSpace)

/-- The tags of a repository. -/
def fetchTags (c : Client) (repo : String) : Lookup (List String) :=
  c.fetch .get (tagsPath repo) [] tagsOf

/-- The types that are accepted for a manifest by tag. -/
def manifestTypes : String :=
  "application/vnd.docker.distribution.manifest.v2+json," ++
  "application/vnd.docker.distribution.manifest.list.v2+json," ++
  "application/vnd.oci.image.manifest.v1+json," ++
  "application/vnd.oci.image.index.v1+json"

/-- The types that are accepted for a manifest that a list names. -/
def singleManifestTypes : String :=
  "application/vnd.docker.distribution.manifest.v2+json, application/vnd.oci.image.manifest.v1+json"

/-- The digest of a tag, without its manifest. -/
def fetchDigest (c : Client) (repo tag : String) : Lookup String :=
  c.fetch .head (manifestPath repo tag) (acceptHeader manifestTypes) digestOf

/-- A manifest by tag or digest. -/
def fetchManifest (c : Client) (repo reference accept : String) : Lookup ManifestPayload :=
  c.fetch .get (manifestPath repo reference) (acceptHeader accept) manifestOf

/-- A blob. -/
def fetchBlob (c : Client) (repo digest : String) : Lookup Bytes :=
  c.fetch .get (blobPath repo digest) [] fun answer => successOf answer >>= bodyOf

end Client

end Registry

end ImageGateway
