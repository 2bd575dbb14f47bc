import ImageGateway.Http.Message
import ImageGateway.Text.Cut

/-!
# Failures of the registry

* `RegistryError` : why the registry gave no usable answer.
* `FailureKind` : what of that a client of the gateway may learn.
-/

namespace ImageGateway

namespace Registry

/-- What is wrong with a response of status 200. -/
inductive Fault where
  | brokenBody
  | undecodable
  | sizesOverflow
deriving DecidableEq, Repr

/-- Why the registry gave no usable answer. -/
inductive RegistryError where
  /-- A status that is no success, with the text of the response. -/
  | status (code : Http.Status) (text : String)
  /-- No response was obtained. -/
  | network
  | invalidResponse (fault : Fault)
  | digestMissing
  | manifestListEmpty
deriving DecidableEq, Repr

/-- What kind of failure it is. -/
inductive FailureKind where
  | notFound
  | methodNotAllowed
  | digestMissing
  | unavailable
deriving DecidableEq, Repr

namespace RegistryError

/-- The kind of a failure. -/
def kind : RegistryError → FailureKind
  | .status code _ =>
    if code = 404 then .notFound else if code = 405 then .methodNotAllowed else .unavailable
  | .digestMissing => .digestMissing
  | _ => .unavailable

/-- The wording of a failure; failures that the transport words have none. -/
def message? : RegistryError → Option String
  | .status code text => some ("Registry returned " ++ Http.Status.render code ++ ": " ++ text)
  | .network => none
  | .invalidResponse .sizesOverflow => some "Invalid registry response: manifest sizes overflow"
  | .invalidResponse _ => none
  | .digestMissing => some "manifest digest missing"
  | .manifestListEmpty => some "manifest list empty"

/-- The byte order mark in front of a text does not count. -/
def dropMark : Bytes → Bytes
  | 0xef :: 0xbb :: 0xbf :: rest => rest
  | bytes => bytes

/-- The text of a response body without blanks at its ends; none of a body that broke off. -/
def bodyText (response : Http.Response) : String :=
  if response.broken then "" else Text.trim (Utf8.decodeLossy (dropMark response.body))

/-- The failure that a response with an unwanted status is. -/
def ofResponse (response : Http.Response) : RegistryError :=
  let text := bodyText response
  .status response.status (if text.isEmpty then Http.Status.render response.status else text)

end RegistryError

end Registry

end ImageGateway
