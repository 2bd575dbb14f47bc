import ImageGateway.Http.Header
import ImageGateway.Text.Cut

/-!
# The session cookie

A login hands the session token to the browser in a cookie, which comes back in the `cookie`
fields of later requests.  A field value is a list of `name=value` pairs between semicolons; the
first pair of the gateway's name counts, in the first field that is text and has one.
-/

namespace ImageGateway

namespace Session

/-- The name of the cookie that carries the token. -/
def cookieName : String := "registry_gate_session"

/-- Where the browser may send the cookie. -/
structure CookieSettings where
  /-- The domain of the cookie, or nothing for the host that set it. -/
  domain : String
  /-- Only over a secure connection. -/
  secure : Bool
deriving DecidableEq, Repr

/-- The attributes behind the pair, for a lifetime in seconds. -/
def cookieAttributes (settings : CookieSettings) (maxAge : Nat) : List String :=
  ["Max-Age=" ++ toString maxAge, "Path=/", "HttpOnly", "SameSite=Lax"] ++
  (if settings.domain.isEmpty then [] else ["Domain=" ++ settings.domain]) ++
  (if settings.secure then ["Secure"] else [])

/-- The value of the field that sets the cookie to `token`. -/
def setCookie (token : String) (settings : CookieSettings) (maxAge : Nat) : String :=
  Text.joinWith "; " ((cookieName ++ "=" ++ token) :: cookieAttributes settings maxAge)

/-- The value of the field that makes the browser forget the cookie. -/
def clearCookie (settings : CookieSettings) : String := setCookie "" settings 0

/-- The pairs of one field value. -/
def cookiePairs (value : String) : List (String × String) :=
  (Text.splitAt ';' value).filterMap fun piece => Text.cutAt '=' (Text.trim piece)

/-- The value of the first pair of the gateway's name. -/
def cookieIn? (value : String) : Option String :=
  ((cookiePairs value).find? (·.1 == cookieName)).map (·.2)

/-- The token that a request carries; an empty one is none. -/
def tokenOf? (headers : Http.Headers) : Option String :=
  match (headers.texts "cookie").findSome? cookieIn? with
  | none => none
  | some token => if token.isEmpty then none else some token

end Session

end ImageGateway
