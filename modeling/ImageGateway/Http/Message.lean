import ImageGateway.Http.Header
import ImageGateway.Http.Target
import ImageGateway.Net.Address

/-!
# Messages

The requests that clients send to the gateway, and responses with their status.  A status is its
number; the standard gives most of the numbers a reason phrase, which error messages show.  A
response may break off: its body is then only the part that arrived.
-/

namespace ImageGateway

namespace Http

/-- The body of a request. -/
inductive Body where
  /-- A body whose length is known. -/
  | sized (bytes : Bytes)
  /-- A body that arrives in pieces until it ends. -/
  | streamed (pieces : List Bytes)
deriving DecidableEq, Repr

/-- The bytes of a body. -/
def Body.bytes : Body → Bytes
  | .sized bytes => bytes
  | .streamed pieces => pieces.flatten

/-- The body is known to be over before it begins. -/
def Body.isOver : Body → Bool
  | .sized bytes => bytes.isEmpty
  | .streamed _ => false

/-- The number that one piece of a length field writes, below 2 ^ 64. -/
def lengthIn? (piece : String) : Option Nat :=
  (Net.decimal? (Text.trim piece).toList).filter (· < 18446744073709551616)

/-- The length that the fields state for the body: all that is written there is one number. -/
def Headers.contentLength? (headers : Headers) : Option Nat := do
  let texts ← (headers.values "content-length").mapM valueText?
  let lengths ← (texts.flatMap (Text.splitAt ',')).mapM lengthIn?
  let length ← lengths.head?
  if lengths.all (· == length) then some length else none

/-- A request of a client. -/
structure Request where
  method : Method
  target : Target
  headers : Headers
  body : Body
  /-- The address that the connection comes from, if it is known. -/
  clientIp : Option Net.Address
deriving DecidableEq, Repr

/-- The status of a response. -/
abbrev Status := Nat

namespace Status

/-- The phrase that the standard gives to a status. -/
def reason? : Status → Option String
  | 100 => "Continue" | 101 => "Switching Protocols" | 102 => "Processing"
  | 200 => "OK" | 201 => "Created" | 202 => "Accepted" | 203 => "Non Authoritative Information"
  | 204 => "No Content" | 205 => "Reset Content" | 206 => "Partial Content" | 207 => "Multi-Status"
  | 208 => "Already Reported" | 226 => "IM Used" | 300 => "Multiple Choices"
  | 301 => "Moved Permanently" | 302 => "Found" | 303 => "See Other" | 304 => "Not Modified"
  | 305 => "Use Proxy" | 307 => "Temporary Redirect" | 308 => "Permanent Redirect"
  | 400 => "Bad Request" | 401 => "Unauthorized" | 402 => "Payment Required" | 403 => "Forbidden"
  | 404 => "Not Found" | 405 => "Method Not Allowed" | 406 => "Not Acceptable"
  | 407 => "Proxy Authentication Required" | 408 => "Request Timeout" | 409 => "Conflict"
  | 410 => "Gone" | 411 => "Length Required" | 412 => "Precondition Failed"
  | 413 => "Payload Too Large" | 414 => "URI Too Long" | 415 => "Unsupported Media Type"
  | 416 => "Range Not Satisfiable" | 417 => "Expectation Failed" | 418 => "I'm a teapot"
  | 421 => "Misdirected Request" | 422 => "Unprocessable Entity" | 423 => "Locked"
  | 424 => "Failed Dependency" | 425 => "Too Early" | 426 => "Upgrade Required"
  | 428 => "Precondition Required" | 429 => "Too Many Requests"
  | 431 => "Request Header Fields Too Large" | 451 => "Unavailable For Legal Reasons"
  | 500 => "Internal Server Error" | 501 => "Not Implemented" | 502 => "Bad Gateway"
  | 503 => "Service Unavailable" | 504 => "Gateway Timeout" | 505 => "HTTP Version Not Supported"
  | 506 => "Variant Also Negotiates" | 507 => "Insufficient Storage" | 508 => "Loop Detected"
  | 510 => "Not Extended" | 511 => "Network Authentication Required"
  | _ => none

/-- The number and the phrase. -/
def render (status : Status) : String :=
  toString status ++ " " ++ (reason? status).getD "<unknown status code>"

end Status

/-- A response. -/
structure Response where
  status : Status
  headers : Headers
  body : Bytes
  /-- The connection broke before the end of the body. -/
  broken : Bool := false
deriving DecidableEq, Repr

/-- The response without its body. -/
def Response.withoutBody (r : Response) : Response := { r with body := [], broken := false }

end Http

end ImageGateway
