import ImageGateway.Codec.Base64
import ImageGateway.Codec.Percent
import ImageGateway.Http.Header
import ImageGateway.Server.Refusal

/-!
# Credentials

A request brings a user name and a password in an `authorization` field with the scheme `Basic`, or,
if it is a login, in a form.  For a login the field counts only if it holds both a name and a
password; in a form, blanks around the name do not count.
-/

namespace ImageGateway

namespace Login

open Server (Refusal)

/-- A user name and a password. -/
structure Credentials where
  username : String
  password : String
deriving DecidableEq, Repr

/-- Both parts are there. -/
def Credentials.isComplete (c : Credentials) : Bool := !c.username.isEmpty && !c.password.isEmpty

/-- The credentials that a field value holds. -/
def credentialsIn? (value : String) : Option Credentials := do
  let (scheme, rest) ← Text.cutAt ' ' value
  if Text.eqIgnoringCase scheme "basic" then
    let bytes ← Base64.decode? (Text.trim rest).toList
    let pair ← Utf8.decode? bytes
    let (username, password) ← Text.cutAt ':' pair
    some ⟨username, password⟩
  else none

/-- The credentials of a request, from its first `authorization` field alone. -/
def basicCredentials? (headers : Http.Headers) : Option Credentials :=
  (headers.firstText? "authorization").bind credentialsIn?

/-- The body of the request is a form. -/
def isForm (headers : Http.Headers) : Bool :=
  ((headers.firstText? "content-type").map
    (Text.beginsWith "application/x-www-form-urlencoded")).getD false

/-- The credentials that a form holds. -/
def formCredentials (body : Bytes) : Except Refusal Credentials :=
  let data := Form.pairs body
  if (Form.repeated? ["username", "password"] data).isSome then .error .invalidForm
  else
    let c : Credentials := ⟨Text.trim (Form.value data "username"), Form.value data "password"⟩
    if c.isComplete then .ok c else .error .missingCredentials

/-- The credentials of a login. -/
def credentials (headers : Http.Headers) (body : Bytes) : Except Refusal Credentials :=
  match (basicCredentials? headers).filter Credentials.isComplete with
  | some c => .ok c
  | none => if isForm headers then formCredentials body else .error .missingCredentials

end Login

end ImageGateway
