import ImageGateway.Http.Message
import ImageGateway.Json.Basic
import ImageGateway.Registry.Deletion

/-!
# Refusals

Why the gateway answers a request with an error of its own.  A client sees a status and a short
wording; what the registry or the directory said stays inside.
-/

namespace ImageGateway

namespace Server

open Http (Response Status)

/-- A response with a JSON body. -/
def jsonResponse (status : Status) (v : Json.Value) : Response :=
  ⟨status, [.ofText "content-type" "application/json"], v.render, false⟩

/-- A response with a plain text. -/
def textResponse (status : Status) (text : String) : Response :=
  ⟨status, [.ofText "content-type" "text/plain; charset=utf-8"], Utf8.encode text, false⟩

/-- A response without a body. -/
def emptyResponse (status : Status) (headers : Http.Headers) : Response :=
  ⟨status, headers, [], false⟩

/-- Why a request is refused. -/
inductive Refusal where
  /-- No live session. -/
  | unauthorized
  /-- No credentials for the registry protocol. -/
  | authRequired
  | invalidCredentials
  | missingCredentials
  | invalidForm
  | bodyTooLong
  | repeatedField (name : String)
  | namespaceNotAllowed
  | deleteNotAllowed
  | missingRepo
  | missingRepoOrTag
  | invalidRepo
  | invalidTag
  | invalidPath
  | forbidden
  | tagNotFound
  | lookupNotAllowed
  | deleteDisabled
  | digestMissing
  | registryUnavailable
  | deleteFailed
deriving DecidableEq, Repr

namespace Refusal

/-- The status of a refusal. -/
def status : Refusal → Status
  | .unauthorized | .authRequired | .invalidCredentials => 401
  | .missingCredentials | .invalidForm | .repeatedField _ | .missingRepo | .missingRepoOrTag
  | .invalidRepo | .invalidTag | .invalidPath => 400
  | .bodyTooLong => 413
  | .namespaceNotAllowed | .deleteNotAllowed | .forbidden => 403
  | .tagNotFound => 404
  | .lookupNotAllowed | .deleteDisabled => 405
  | .digestMissing | .registryUnavailable | .deleteFailed => 502

/-- The wording of a refusal. -/
def message : Refusal → String
  | .unauthorized => "unauthorized"
  | .authRequired => "auth required"
  | .invalidCredentials => "invalid credentials"
  | .missingCredentials => "missing credentials"
  | .invalidForm => "invalid form submission"
  | .bodyTooLong => "Failed to buffer the request body: length limit exceeded"
  | .repeatedField name =>
    "Failed to deserialize query string: duplicate field \x60" ++ name ++ "\x60"
  | .namespaceNotAllowed => "namespace not allowed"
  | .deleteNotAllowed => "delete not allowed"
  | .missingRepo => "missing repo"
  | .missingRepoOrTag => "missing repo or tag"
  | .invalidRepo => "invalid repo"
  | .invalidTag => "invalid tag"
  | .invalidPath => "invalid path"
  | .forbidden => "forbidden"
  | .tagNotFound => "tag not found"
  | .lookupNotAllowed => "registry tag lookup not allowed"
  | .deleteDisabled => "registry delete disabled"
  | .digestMissing => "manifest digest missing"
  | .registryUnavailable => "registry unavailable"
  | .deleteFailed => "registry delete failed"

/-- The refusal is worded as plain text and not as JSON. -/
def isPlain : Refusal → Bool
  | .bodyTooLong | .repeatedField _ => true
  | _ => false

/-- The response to a request that is refused. -/
def response (r : Refusal) : Response :=
  if r.isPlain then textResponse r.status r.message
  else jsonResponse r.status (.record [("error", .text r.message)])

/-- What a client learns of a deletion that failed. -/
def ofDeletion : Registry.DeletionError → Refusal
  | .lookup cause =>
    match cause.kind with
    | .notFound => .tagNotFound
    | .methodNotAllowed => .lookupNotAllowed
    | .digestMissing => .digestMissing
    | .unavailable => .registryUnavailable
  | .delete cause =>
    match cause.kind with
    | .notFound => .tagNotFound
    | .methodNotAllowed => .deleteDisabled
    | _ => .deleteFailed

end Refusal

end Server

end ImageGateway
